/-! # Backends

The ways of turning a table into match logic: one guard per rule, or logic minimisation, which is
reserved and not available.
-/

namespace DecoderGen

/-- A way of turning a table into match logic. -/
inductive Backend where
  | native
  | espresso
deriving DecidableEq, Repr

namespace Backend

/-- All backends, the default one first. -/
def all : List Backend := [.native, .espresso]

/-- The canonical name of a backend. -/
def name : Backend → String
  | .native => "native"
  | .espresso => "espresso"

/-- The letters of a text with ASCII capitals made small. -/
def foldCase (text : String) : List Char := text.toList.map Char.toLower

/-- The backend of exactly this name. -/
def ofExactName? (text : String) : Option Backend := all.find? fun backend => backend.name = text

/-- The backend of this name, the case of ASCII letters aside. -/
def ofName? (text : String) : Option Backend :=
  all.find? fun backend => foldCase backend.name = foldCase text

/-- The wording for a name that no backend has. -/
def unknownMessage (text : String) : String :=
  s!"unknown backend `{text}` (expected `native` or `espresso`)"

end Backend
end DecoderGen
