import DecoderGen.Bisection

/-! # Identifiers of the generated hardware description

Every name that reaches generated code has to be usable there as it stands: an ASCII letter or
underscore, then ASCII letters, digits or underscores, and no reserved word of SystemVerilog.
The reserved words are kept in order and searched by bisection.
-/

namespace DecoderGen

/-- The reserved words of SystemVerilog (IEEE 1800-2017, Annex B), in dictionary order. -/
def reservedWords : Array String :=
  #["accept_on", "alias", "always", "always_comb", "always_ff", "always_latch", "and", "assert",
   "assign", "assume", "automatic", "before", "begin", "bind", "bins", "binsof", "bit", "break",
   "buf", "bufif0", "bufif1", "byte", "case", "casex", "casez", "cell", "chandle", "checker",
   "class", "clocking", "cmos", "config", "const", "constraint", "context", "continue", "cover",
   "covergroup", "coverpoint", "cross", "deassign", "default", "defparam", "design", "disable",
   "dist", "do", "edge", "else", "end", "endcase", "endchecker", "endclass", "endclocking",
   "endconfig", "endfunction", "endgenerate", "endgroup", "endinterface", "endmodule",
   "endpackage", "endprimitive", "endprogram", "endproperty", "endsequence", "endspecify",
   "endtable", "endtask", "enum", "event", "eventually", "expect", "export", "extends", "extern",
   "final", "first_match", "for", "force", "foreach", "forever", "fork", "forkjoin", "function",
   "generate", "genvar", "global", "highz0", "highz1", "if", "iff", "ifnone", "ignore_bins",
   "illegal_bins", "implements", "implies", "import", "incdir", "include", "initial", "inout",
   "input", "inside", "instance", "int", "integer", "interconnect", "interface", "intersect",
   "join", "join_any", "join_none", "large", "let", "liblist", "library", "local", "localparam",
   "logic", "longint", "macromodule", "matches", "medium", "modport", "module", "nand", "negedge",
   "nettype", "new", "nexttime", "nmos", "nor", "noshowcancelled", "not", "notif0", "notif1",
   "null", "or", "output", "package", "packed", "parameter", "pmos", "posedge", "primitive",
   "priority", "program", "property", "protected", "pull0", "pull1", "pulldown", "pullup",
   "pulsestyle_ondetect", "pulsestyle_onevent", "pure", "rand", "randc", "randcase",
   "randsequence", "rcmos", "real", "realtime", "ref", "reg", "reject_on", "release", "repeat",
   "restrict", "return", "rnmos", "rpmos", "rtran", "rtranif0", "rtranif1", "s_always",
   "s_eventually", "s_nexttime", "s_until", "s_until_with", "scalared", "sequence", "shortint",
   "shortreal", "showcancelled", "signed", "small", "soft", "solve", "specify", "specparam",
   "static", "string", "strong", "strong0", "strong1", "struct", "super", "supply0", "supply1",
   "sync_accept_on", "sync_reject_on", "table", "tagged", "task", "this", "throughout", "time",
   "timeprecision", "timeunit", "tran", "tranif0", "tranif1", "tri", "tri0", "tri1", "triand",
   "trior", "trireg", "type", "typedef", "union", "unique", "unique0", "unsigned", "until",
   "until_with", "untyped", "use", "uwire", "var", "vectored", "virtual", "void", "wait",
   "wait_order", "wand", "weak", "weak0", "weak1", "while", "wildcard", "wire", "with", "within",
   "wor", "xnor", "xor"]

/-- Whether a character may start an identifier. -/
def isIdentifierStart (symbol : Char) : Bool := symbol.isAlpha || symbol == '_'

/-- Whether a character may stand inside an identifier. -/
def isIdentifierPart (symbol : Char) : Bool := symbol.isAlphanum || symbol == '_'

/-- Whether the characters of a name have the form of an identifier, reserved words aside. -/
def hasIdentifierForm : List Char → Bool
  | [] => false
  | first :: rest => isIdentifierStart first && rest.all isIdentifierPart

/-- Whether a name is a reserved word. -/
def isReserved (name : String) : Bool := Bisection.contains reservedWords name

theorem reservedWords_ascending : Bisection.Ascending reservedWords :=
  (Bisection.ascends_eq_true_iff reservedWords.toList).mp (by decide +kernel)

/-- The search for reserved words finds all of them and nothing else. -/
theorem isReserved_eq_true_iff (name : String) : isReserved name = true ↔ name ∈ reservedWords :=
  Bisection.contains_eq_true_iff reservedWords_ascending name

/-- Whether a name can stand in generated code as it is. -/
def isIdentifier (name : String) : Bool := hasIdentifierForm name.toList && !isReserved name

/-- What a checked name is for. -/
inductive NameRole where
  | module
  | outputType
  | outputField
  | inputPort
  | outputPort
  | rule
deriving DecidableEq, Repr

/-- The words by which messages refer to a name. -/
def NameRole.description : NameRole → String
  | .module => "module name"
  | .outputType => "output type name"
  | .outputField => "output field"
  | .inputPort => "input port"
  | .outputPort => "output port"
  | .rule => "rule name"

/-- Why a name is refused. -/
inductive NameFault where
  | empty (role : NameRole)
  | notIdentifier (role : NameRole) (name : String)
deriving DecidableEq, Repr

/-- The wording of a refused name. -/
def NameFault.message : NameFault → String
  | .empty role => s!"{role.description} must not be empty"
  | .notIdentifier role name => s!"{role.description} `{name}` is not a legal identifier"

/-- The fault of a name that has to be an identifier, if it has one. -/
def identifierFault? (role : NameRole) (name : String) : Option NameFault :=
  if name = "" then some (.empty role)
  else if isIdentifier name then none
  else some (.notIdentifier role name)

/-- The empty name is no identifier, so a name without a fault is one and conversely. -/
theorem identifierFault?_eq_none_iff (role : NameRole) (name : String) :
    identifierFault? role name = none ↔ isIdentifier name = true := by
  unfold identifierFault?
  split
  · next isEmpty => simp [isEmpty, isIdentifier, hasIdentifierForm]
  · split <;> simp_all

end DecoderGen
