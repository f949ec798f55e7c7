import BlueprintSchema.Json.Reader
import BlueprintSchema.Proofs.Dict

/-! JSON values whose objects are in key order, with one member for each key. All values that are read
from text are of this kind. Main statement: `Json.ordered_of_parse`. -/

namespace BlueprintSchema.Json

mutual

/-- In an object, and in all objects within, keys strictly increase. -/
def Ordered : Json → Prop
  | array items => ItemsOrdered items
  | object members => members.Pairwise (fun a b => a.1 < b.1) ∧ MembersOrdered members
  | _ => True

def ItemsOrdered : List Json → Prop
  | [] => True
  | j :: js => Ordered j ∧ ItemsOrdered js

def MembersOrdered : List (String × Json) → Prop
  | [] => True
  | (_, j) :: ms => Ordered j ∧ MembersOrdered ms

end

theorem itemsOrdered_iff {js : List Json} : ItemsOrdered js ↔ ∀ j ∈ js, j.Ordered := by
  induction js with
  | nil => simp [ItemsOrdered]
  | cons j js ih => rw [ItemsOrdered, ih, List.forall_mem_cons]

theorem membersOrdered_iff {ms : List (String × Json)} :
    MembersOrdered ms ↔ ∀ m ∈ ms, m.2.Ordered := by
  induction ms with
  | nil => simp [MembersOrdered]
  | cons m ms ih => rw [MembersOrdered, ih, List.forall_mem_cons]

theorem ofMembers_eq (ms : List (String × Json)) :
    ofMembers ms = object (Dict.ofList ms).entries := by
  rw [ofMembers, Dict.entries_ofList]

theorem ordered_ofMembers {ms : List (String × Json)} (h : ∀ m ∈ ms, m.2.Ordered) :
    (ofMembers ms).Ordered := by
  rw [ofMembers_eq]
  exact ⟨(Dict.ofList ms).sorted, membersOrdered_iff.2 fun m member =>
    h m (Dict.mem_of_mem_entries_ofList member)⟩

theorem ofMembers_of_sorted {ms : List (String × Json)} (sorted : ms.Pairwise (fun a b => a.1 < b.1)) :
    ofMembers ms = object ms := by
  rw [ofMembers_eq, Dict.entries_ofList_of_sorted sorted]

theorem Ordered.of_lookup {ms : List (String × Json)} {key : String} {j : Json}
    (ordered : (object ms).Ordered) (found : ms.lookup key = some j) : j.Ordered := by
  obtain ⟨before, after, rfl, -⟩ := List.lookup_eq_some_iff.1 found
  exact membersOrdered_iff.1 ordered.2 (key, j) (by simp)

/-! ### Reading -/

theorem ordered_number? {s r : List Char} {j : Json} (h : number? s = some (j, r)) : j.Ordered := by
  have scaled : ∀ {x? : Option Binary64} {negative : Bool} {rest : List Char},
      x?.map (fun x => (float (if negative then .ofMagnitude true x.magnitude else x), rest)) =
        some (j, r) → j.Ordered := by
    intro x? negative rest given
    obtain ⟨x, -, same⟩ := Option.map_eq_some_iff.1 given
    cases same
    trivial
  unfold number? at h
  dsimp only at h
  -- With and without a sign, the cases are the same.
  split at h <;>
  · split at h
    · nomatch h
    split at h
    · nomatch h
    split at h
    · nomatch h
    split at h
    · split at h
      · cases h
        trivial
      · split at h
        · cases h
          trivial
        · exact scaled h
    · exact scaled h

theorem ordered_word? {w s r : List Char} {j k : Json} (h : word? w k s = some (j, r))
    (plain : k.Ordered) : j.Ordered := by
  unfold word? at h
  split at h
  · cases h
    exact plain
  · nomatch h

theorem ordered_read (fuel : Nat) :
    (∀ depth s j r, readValue? fuel depth s = some (j, r) → j.Ordered) ∧
    (∀ depth s js r, readItems? fuel depth s = some (js, r) → ∀ j ∈ js, j.Ordered) ∧
    ∀ depth s ms r, readMembers? fuel depth s = some (ms, r) → ∀ m ∈ ms, m.2.Ordered := by
  induction fuel with
  | zero => exact ⟨nofun, nofun, nofun⟩
  | succ fuel ih =>
    obtain ⟨value, items, members⟩ := ih
    refine ⟨fun depth s j r h => ?_, fun depth s js r h => ?_, fun depth s ms r h => ?_⟩
    · unfold readValue? at h
      split at h
      · obtain ⟨_, -, same⟩ := Option.map_eq_some_iff.1 h
        cases same
        trivial
      · split at h
        · nomatch h
        split at h
        · cases h
          trivial
        · obtain ⟨⟨js, _⟩, read, same⟩ := Option.map_eq_some_iff.1 h
          cases same
          exact itemsOrdered_iff.2 (items _ _ js _ read)
      · split at h
        · nomatch h
        split at h
        · cases h
          exact ⟨.nil, trivial⟩
        · obtain ⟨⟨ms, _⟩, read, same⟩ := Option.map_eq_some_iff.1 h
          cases same
          exact ordered_ofMembers (members _ _ ms _ read)
      · exact ordered_word? h trivial
      · exact ordered_word? h trivial
      · exact ordered_word? h trivial
      · exact ordered_number? h
    · unfold readItems? at h
      obtain ⟨⟨j, rest⟩, read, h⟩ := Option.bind_eq_some_iff.1 h
      have first := value _ _ j _ read
      dsimp only at h
      split at h
      · cases h
        simpa using first
      · obtain ⟨⟨js', _⟩, more, h⟩ := Option.bind_eq_some_iff.1 h
        cases h
        exact List.forall_mem_cons.2 ⟨first, items _ _ js' _ more⟩
      · nomatch h
    · unfold readMembers? at h
      split at h
      · obtain ⟨⟨key, rest⟩, -, h⟩ := Option.bind_eq_some_iff.1 h
        dsimp only at h
        split at h
        · obtain ⟨⟨j, rest⟩, read, h⟩ := Option.bind_eq_some_iff.1 h
          have first := value _ _ j _ read
          dsimp only at h
          split at h
          · cases h
            simpa using first
          · obtain ⟨⟨ms', _⟩, more, h⟩ := Option.bind_eq_some_iff.1 h
            cases h
            exact List.forall_mem_cons.2 ⟨first, members _ _ ms' _ more⟩
          · nomatch h
        · nomatch h
      · nomatch h

theorem ordered_of_parse {s : String} {j : Json} (h : parse s = some j) : j.Ordered := by
  unfold parse at h
  dsimp only at h
  split at h
  · next value rest read =>
    split at h
    · cases h
      exact (ordered_read _).1 _ _ _ _ read
    · nomatch h
  · nomatch h

end BlueprintSchema.Json
