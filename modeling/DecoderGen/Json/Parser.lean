import DecoderGen.Json.Token

/-! # From tokens to a JSON value

The containers that are open while a text is read form a stack. Each token either completes a value,
which then joins the innermost open container, or opens or continues one. A text is JSON when its
tokens lead to exactly one complete value, with at most 127 containers inside one another.
-/

namespace DecoderGen.Json

/-- An open container that waits for its next value; what it holds already is newest first. -/
inductive Frame where
  | array (elements : List Json)
  | object (members : List (String × Json)) (key : String)

/-- What has been read, and with it what may follow. -/
inductive ParseState where
  | beforeValue (outer : List Frame)
  | arrayOpened (outer : List Frame)
  | objectOpened (outer : List Frame)
  | afterElement (elements : List Json) (outer : List Frame)
  | afterMember (members : List (String × Json)) (outer : List Frame)
  | beforeKey (members : List (String × Json)) (outer : List Frame)
  | afterKey (members : List (String × Json)) (key : String) (outer : List Frame)
  | complete (value : Json)

/-- The largest number of containers inside one another. -/
def maxDepth : Nat := 127

namespace ParseState

/-- Hand a complete value to the innermost open container. -/
def deliver (value : Json) : List Frame → ParseState
  | [] => .complete value
  | .array elements :: outer => .afterElement (value :: elements) outer
  | .object members key :: outer => .afterMember ((key, value) :: members) outer

/-- Open a container inside the given ones, unless they are too many already. -/
def openInside (outer : List Frame) (opened : ParseState) : Option ParseState :=
  if outer.length < maxDepth then some opened else none

/-- A token where a value has to start. -/
def startValue (outer : List Frame) : Token → Option ParseState
  | .scalar value => some (deliver value outer)
  | .text value => some (deliver (.string value) outer)
  | .arrayStart => openInside outer (.arrayOpened outer)
  | .objectStart => openInside outer (.objectOpened outer)
  | _ => none

/-- The state after one more token, if the token may stand there. -/
def step : ParseState → Token → Option ParseState
  | .beforeValue outer, token => startValue outer token
  | .arrayOpened outer, .arrayEnd => some (deliver (.array []) outer)
  | .arrayOpened outer, token => startValue (.array [] :: outer) token
  | .objectOpened outer, .objectEnd => some (deliver (.object []) outer)
  | .objectOpened outer, .text key => some (.afterKey [] key outer)
  | .afterElement elements outer, .comma => some (.beforeValue (.array elements :: outer))
  | .afterElement elements outer, .arrayEnd => some (deliver (.array elements.reverse) outer)
  | .afterMember members outer, .comma => some (.beforeKey members outer)
  | .afterMember members outer, .objectEnd => some (deliver (.object members.reverse) outer)
  | .beforeKey members outer, .text key => some (.afterKey members key outer)
  | .afterKey members key outer, .colon => some (.beforeValue (.object members key :: outer))
  | _, _ => none

/-- The value of a state that needs no more tokens. -/
def value? : ParseState → Option Json
  | .complete value => some value
  | _ => none

/-- The state after all given tokens, if each may stand where it does. -/
def run : ParseState → List Token → Option ParseState
  | state, [] => some state
  | state, token :: rest => (state.step token).bind (run · rest)

end ParseState

/-- The value of a JSON text. -/
def parse? (text : String) : Option Json := do
  let tokens ← Token.all? text.toList
  let final ← ParseState.run (.beforeValue []) tokens
  final.value?

end DecoderGen.Json
