/-! # JSON values

Objects keep their members in text order, repeated keys included, so that a reader of values can
still report the first problem of a text. Numbers are integers where the literal has neither a
fraction nor an exponent and fits 64 bits; every other number is a floating-point value.
-/

namespace DecoderGen

/-- A JSON value as it stands in a text. -/
inductive Json where
  | null
  | bool (value : Bool)
  | integer (value : Int)
  | real (value : Float)
  | string (value : String)
  | array (elements : List Json)
  | object (members : List (String × Json))

end DecoderGen
