namespace Declang

/-- What a JSON string stands for: a text, or none when an escape is half of a surrogate pair. -/
inductive Json.Text where
  | whole (text : String)
  | broken
  deriving DecidableEq, Repr

/-- A JSON value. Numbers keep their spelling, objects keep the order of their fields. -/
inductive Json where
  | null
  | bool (value : Bool)
  | number (spelling : String)
  | text (text : Json.Text)
  | array (items : List Json)
  | object (fields : List (Json.Text × Json))

namespace Json

def string (text : String) : Json :=
  .text (.whole text)

def record (fields : List (String × Json)) : Json :=
  .object (fields.map fun (key, value) => (.whole key, value))

end Json

end Declang
