import BlueprintSchema.Yaml.Value

/-! Equality of YAML values can be decided: unlike the comparison of keys it keeps the order of a mapping
and the sign of a zero. Main statement: `Yaml.Value.equal_iff`. -/

namespace BlueprintSchema.Yaml.Value

mutual

def equal : Value → Value → Bool
  | null, null => true
  | bool a, bool b => a == b
  | int a, int b => a == b
  | float a, float b => a == b
  | string a, string b => a == b
  | sequence a, sequence b => equalItems a b
  | mapping a, mapping b => equalEntries a b
  | tagged s a, tagged t b => s == t && equal a b
  | _, _ => false

def equalItems : List Value → List Value → Bool
  | [], [] => true
  | a :: r, b :: s => equal a b && equalItems r s
  | _, _ => false

def equalEntries : List (Value × Value) → List (Value × Value) → Bool
  | [], [] => true
  | d :: r, e :: s => equalEntry d e && equalEntries r s
  | _, _ => false

def equalEntry : Value × Value → Value × Value → Bool
  | (k, v), (k', v') => equal k k' && equal v v'

end

mutual

theorem equal_iff : ∀ a b : Value, equal a b = true ↔ a = b
  | null, b | bool _, b | int _, b | float _, b | string _, b => by cases b <;> simp [equal]
  | sequence a, b => by
    cases b with
    | sequence b => simp [equal, equalItems_iff a b]
    | _ => simp [equal]
  | mapping a, b => by
    cases b with
    | mapping b => simp [equal, equalEntries_iff a b]
    | _ => simp [equal]
  | tagged _ a, b => by
    cases b with
    | tagged _ b => simp [equal, equal_iff a b]
    | _ => simp [equal]

theorem equalItems_iff : ∀ a b : List Value, equalItems a b = true ↔ a = b
  | [], b => by cases b <;> simp [equalItems]
  | a :: r, b => by
    cases b with
    | cons b s => simp [equalItems, equal_iff a b, equalItems_iff r s]
    | nil => simp [equalItems]

theorem equalEntries_iff : ∀ a b : List (Value × Value), equalEntries a b = true ↔ a = b
  | [], b => by cases b <;> simp [equalEntries]
  | (k, v) :: r, b => by
    cases b with
    | cons e s =>
      obtain ⟨k', v'⟩ := e
      simp [equalEntries, equalEntry, equal_iff k k', equal_iff v v', equalEntries_iff r s]
    | nil => simp [equalEntries]

end

instance : DecidableEq Value := fun a b => decidable_of_iff _ (equal_iff a b)

end BlueprintSchema.Yaml.Value
