import DecoderGen.Compilation
import DecoderGen.Proofs.TableMeaning

/-! # What a successful compilation establishes

Compiling succeeds exactly when the style suits the table, the table resolves, strict mode finds no
overlap to refuse, and the backend is the native one. The result is then determined: the native
logic of the resolved table, the files generated from it, and the overlaps.
-/

namespace DecoderGen

/-- Two tables name the same module with the same input and output; their rules may differ. -/
structure Table.SameInterface (left right : Table) : Prop where
  moduleName : left.moduleName = right.moduleName
  width : left.width = right.width
  output : left.output = right.output

/-- Beside the logic, generated files show only the interface of a table. -/
theorem Table.SameInterface.generate_eq {left right : Table} (same : left.SameInterface right)
    (logic : Logic) (style : Style) :
    Artifacts.generate left logic style = Artifacts.generate right logic style := by
  have arms : SystemVerilog.armLines left style = SystemVerilog.armLines right style :=
    funext fun guard => by simp only [SystemVerilog.armLines, same.output]
  simp only [Artifacts.generate, SystemVerilog.typesLines, SystemVerilog.decoderLines,
    SystemVerilog.header, Table.inputWidth, same.moduleName, same.width, same.output, arms]

/-- What a compilation of a resolved table consists of. -/
def Resolved.compilation (resolved : Resolved) (style : Style) : Compilation where
  logic := resolved.nativeLogic
  artifacts := Artifacts.generate resolved.table resolved.nativeLogic style
  overlaps := resolved.overlaps

theorem Resolved.generate_eq_ok_iff (resolved : Resolved) (config : Config)
    (compilation : Compilation) :
    resolved.generate config = .ok compilation ↔
      config.backend = .native ∧ compilation = resolved.compilation config.style := by
  unfold Resolved.generate
  cases backend : config.backend with
  | native =>
    simp only [Backend.compile_native, Except.ok.injEq, true_and]
    exact eq_comm
  | espresso => simp [Backend.compile]

theorem Resolved.compile_eq_ok_iff (resolved : Resolved) (config : Config)
    (compilation : Compilation) :
    resolved.compile config = .ok compilation ↔
      (config.strict = true → resolved.overlaps = []) ∧ config.backend = .native ∧
        compilation = resolved.compilation config.style := by
  rw [← resolved.generate_eq_ok_iff config compilation, Resolved.compile]
  split
  · next refused => exact iff_of_false (by simp) fun sound => refused.2 (sound.1 refused.1)
  · next passed =>
    refine ⟨fun success => ⟨fun strict => ?_, success⟩, fun sound => sound.2⟩
    by_contra overlapping
    exact passed ⟨strict, overlapping⟩

/-- The outcome of every successful compilation, stage by stage. -/
theorem Table.compile_eq_ok_iff (table : Table) (config : Config) (compilation : Compilation) :
    table.compile config = .ok compilation ↔
      config.style.fault? table = none ∧ ∃ resolved : Resolved, resolved.table = table ∧
        (config.strict = true → resolved.overlaps = []) ∧ config.backend = .native ∧
          compilation = resolved.compilation config.style := by
  simp only [← Resolved.compile_eq_ok_iff, ← Table.resolve_eq_ok_iff]
  unfold Table.compile
  cases config.style.fault? table with
  | some fault => simp
  | none =>
    cases table.resolve with
    | error faults => simp
    | ok resolved => simp

end DecoderGen
