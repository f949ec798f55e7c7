import BlueprintSchema.Binary64

/-!
TOML values.
-/

namespace BlueprintSchema

inductive Toml
  | bool (b : Bool)
  | int (n : Int)
  | float (x : Binary64)
  | string (s : String)
  | datetime (text : String)
  | array (items : List Toml)
  | table (entries : List (String × Toml))
  deriving Inhabited

end BlueprintSchema
