import Zatca.Core.Totals
set_option autoImplicit false
namespace Zatca

/-! ### What the language does with a value -/

namespace Json

def isObject : Json → Bool
  | .arr _ | .obj _ => true
  | _ => false

/-- `a === b`, where `b` is a value made for the comparison: no object is the same as it. -/
def strictEquals : Json → Json → Bool
  | .null, .null => true
  | .bool a, .bool b => a = b
  | .num a, .num b => a = b
  | .str a, .str b => a = b
  | _, _ => false

def notPrimitive : Thrown := .typeError "Cannot convert object to primitive value"

mutual
/-- `String(value)`. What a key `toString` holds is not a function, and hides the inherited one. -/
def asString : Json → Except Thrown String
  | .null => .ok "null"
  | .bool b => .ok (if b then "true" else "false")
  | .num q => .ok (Number.toString q)
  | .str s => .ok s
  | .arr xs => (joined xs).map (String.intercalate ",")
  | .obj fields => if (fields.lookup "toString").isSome then .error notPrimitive else .ok "[object Object]"
/-- The parts that an array is joined from. -/
def joined : List Json → Except Thrown (List String)
  | [] => .ok []
  | .null :: xs => (joined xs).map ("" :: ·)
  | x :: xs => do
    let s ← asString x
    (joined xs).map (s :: ·)
end

/-- `value[name]` of what may be `null`. -/
def member (value : Json) (name : String) : Except Thrown (Option Json) :=
  match value with
  | .null => .error (.typeError ("Cannot read properties of null (reading '" ++ name ++ "')"))
  | v => .ok (v.field name)

/-- `value?.[name]`, where `null` is left out like `undefined`. -/
def optionalMember (value : Option Json) (name : String) : Option Json := (value.bind (field name)).filter (· ≠ .null)

end Json

/-! ### Queries -/

/-- The wrapper of a tree, as the parser makes it or as it was changed since. -/
structure XMLDocument where
  xml_object : XMLObject

/-- Every key of the pattern is on the item with a value that is strictly equal. -/
def matchesSubset (item : Json) (pattern : List (String × Json)) : Bool :=
  item.isObject && pattern.all fun (key,value) =>
    match item.field key with
    | some v => v.strictEquals value
    | none => false

namespace XMLDocument

/-- What a path of tags leads to; only an object has something under a tag. -/
def getElement : Option Json → List String → Option Json
  | xml_object, [] => xml_object
  | none, _ :: _ => none
  | some xml_object, tag :: path => getElement (xml_object.field tag) path

def get (doc : XMLDocument) (path : List String) (condition : Option (List (String × Json)) := none) :
    Option (List Json) :=
  match getElement (some doc.xml_object) path with
  | none => none
  | some xml_object =>
    let query_result := match xml_object with
      | .arr xs => xs
      | v => [v]
    let query_result := match condition with
      | none => query_result
      | some pattern => query_result.filter fun item => matchesSubset item pattern
    if query_result.isEmpty then none else some query_result

end XMLDocument

example : XMLDocument.get ⟨.obj [("Invoice",.obj [("cbc:ID",.arr [.str "1",.str "2"])])]⟩ ["Invoice","cbc:ID"] =
    some [.str "1",.str "2"] := by decide

end Zatca
