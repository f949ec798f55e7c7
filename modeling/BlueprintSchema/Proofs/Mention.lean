import BlueprintSchema.Proofs.Registrations
import BlueprintSchema.Proofs.Scripts

/-! Scripts that nowhere mention the registering method. No call in any tree of such a script registers
anything, because the name of the method would be spelled in the call and so in the script. Leaving
these scripts unread therefore costs nothing, and those among them with a syntax error register nothing
either way. Main statement: `ComputedField.unmentioned_register_nothing`. -/

namespace BlueprintSchema

namespace Script.Tree

theorem infix_of_mem_nodes {t part : Tree} {kind : Kind} {parts : List Tree}
    (inside : (kind, parts) ∈ t.nodes) (member : part ∈ parts) : part.spelling <:+: t.spelling := by
  rw [← map_addressed, List.mem_map] at inside
  obtain ⟨⟨a, _, _⟩, addressed, same⟩ := inside
  cases same
  exact (infix_of_mem member).trans (infix_of_at? (mem_addressed.1 addressed))

end Script.Tree

namespace ComputedField

open Script

theorem exists_method_of_ofCall {call : List Tree} (registers : ofCall call ≠ []) :
    ∃ method ∈ call, method.text = registrationMethod.toList := by
  have nonempty : [] ≠ registrationMethod.toList := by decide
  cases found : call.find? (Tree.hasKind .method) with
  | none => simp [ofCall, found, nonempty] at registers
  | some method =>
    by_cases named : method.text = registrationMethod.toList
    · exact ⟨method, List.mem_of_find?_eq_some found, named⟩
    · simp [ofCall, found, named] at registers

variable {tree : Tree} {source : String}

theorem ofCall_of_unmentioned (unmentioned : ¬ registrationMethod.toList <:+: tree.spelling)
    {kind : Kind} {call : List Tree} (inside : (kind, call) ∈ tree.nodes) : ofCall call = [] := by
  by_contra registers
  obtain ⟨method, member, named⟩ := exists_method_of_ofCall registers
  refine unmentioned ?_
  rw [← named]
  exact (Tree.text_infix_spelling method).trans (Tree.infix_of_mem_nodes inside member)

theorem handles_of_unmentioned (unmentioned : ¬ registrationMethod.toList <:+: tree.spelling) :
    handles tree = [] := by
  refine List.flatMap_eq_nil_iff.2 fun (kind, call) inside => ?_
  dsimp only
  split
  · rw [ofCall_of_unmentioned unmentioned inside, List.map_nil]
  · rfl

/-- The fields that the script at a path registers if it is parsed whatever it mentions; none if it
cannot be read or has a syntax error. -/
def registeredIfParsed (t : FileTree) (path : String) : List Field :=
  match t.read path with
  | .ok source =>
    match parse? source with
    | some tree => (handles tree).map Field.computed
    | none => []
  | .error _ => []

theorem registered_eq_ifParsed (t : FileTree) (path : String) :
    registered t path = registeredIfParsed t path := by
  unfold registered registeredIfParsed ofFile
  cases t.read path with
  | error => rfl
  | ok source =>
    dsimp only
    unfold ofScript
    by_cases mentioned : Text.occursIn registrationMethod.toList source.toList = true
    · rw [if_pos mentioned]
      cases parse? source <;> rfl
    · rw [if_neg mentioned]
      cases parsed : parse? source with
      | none => rfl
      | some tree =>
        rw [Text.occursIn_iff, ← spelling_of_parse? parsed] at mentioned
        simp [handles_of_unmentioned mentioned]

/-- In a script that does not mention the method no call registers anything, whatever tree the script is
given; so what a scan of paths discovers is what it would discover if it parsed every script. -/
theorem unmentioned_register_nothing :
    (∀ (source : String) (tree : Tree), tree.spelling = source.toList →
      ¬ registrationMethod.toList <:+: source.toList →
        (∀ call, (.staticCall, call) ∈ tree.nodes → ofCall call = []) ∧ handles tree = []) ∧
    ∀ (t : FileTree) (paths : List String),
      discover t paths = (paths.flatMap (scripts t)).flatMap (registeredIfParsed t) := by
  refine ⟨fun source tree spelled unmentioned => ?_, fun t paths => ?_⟩
  · rw [← spelled] at unmentioned
    exact ⟨fun call inside => ofCall_of_unmentioned unmentioned inside,
      handles_of_unmentioned unmentioned⟩
  · rw [discover_eq]
    exact List.flatMap_congr fun path _ => registered_eq_ifParsed t path

/-- A call on the facade of a method whose name only begins like the registering one. -/
def otherMethod : String := "<?php Collection::compute('a', 'k');"

theorem otherMethod_registers_nothing :
    ∃ tree call, parse? otherMethod = some tree ∧ (.staticCall, call) ∈ tree.nodes ∧
      ¬ registrationMethod.toList <:+: otherMethod.toList ∧ ofCall call = [] := by
  obtain ⟨tree, parsed, some⟩ : ∃ tree, parse? otherMethod = some tree ∧
      tree.nodes.any (fun n => n.1 == .staticCall) = true := by
    rw [← Option.any_eq_true]
    decide +kernel
  obtain ⟨⟨_, call⟩, inside, kind⟩ := List.any_eq_true.1 some
  obtain rfl := beq_iff_eq.1 kind
  have unmentioned : ¬ registrationMethod.toList <:+: otherMethod.toList := by
    rw [← Text.occursIn_iff]
    decide +kernel
  exact ⟨tree, call, parsed, inside, unmentioned,
    (unmentioned_register_nothing.1 _ tree (spelling_of_parse? parsed) unmentioned).1 call inside⟩

end ComputedField

end BlueprintSchema
