import BlueprintSchema.Proofs.Script.Shape
import BlueprintSchema.Script.Document

/-! Expressions and statements. Calls through `::` and arrays get their form here, and with them every
rule of the grammar gives shaped trees, at any depth. Main statement: `shaped_of_parse?`. -/

namespace BlueprintSchema.Script

open BlueprintSchema.Script.Tree Signature

section Level

variable {inner : Inner} [inner.Sound] {atEnd : Bool}

namespace Expression

section Operands

variable {p : Rule} {shape : Shape}

instance yields_operand [Yields (Each Shaped) p] : Yields Operand.Shaped (operand shape p) :=
  .bind (P := Each Shaped) inferInstance fun ts shaped =>
    .pure ⟨shaped_node.2 ⟨.free rfl, shaped⟩, _, ts, rfl, rfl⟩

theorem yields_whole (h : Yields (Each fun t => t.Shaped ∧ t.IsExpression) p) :
    Yields Operand.Shaped (whole shape p) := by
  refine .bind h fun ts given => ?_
  split
  · next t => exact .pure (given t List.mem_cons_self)
  · refine .pure ⟨shaped_node.2 ⟨.free rfl, fun t member => (given t member).1⟩, _, _, rfl, rfl⟩

theorem yields_wholeNode [shaped : Yields (Each Tree.Shaped) p]
    (expression : Yields (Each IsExpression) p) : Yields Operand.Shaped (whole shape p) :=
  yields_whole ((shaped.and expression).mono fun _ both t member =>
    ⟨both.1 t member, both.2 t member⟩)

end Operands

instance yields_simpleVariable : Yields (Each Shaped) (simpleVariable inner) := by
  unfold simpleVariable
  infer_instance

instance yields_memberName : Yields (Each Shaped) (memberName inner) := by
  unfold memberName
  infer_instance

instance yields_subscript : Yields (Each Shaped) (subscript inner) := by
  unfold subscript
  infer_instance

/-! ### Arrays and patterns -/

def Slot.Shaped (e : Slot) : Prop := Form .element e.trees ∧ Each Tree.Shaped e.trees

instance yields_byReference : Yields (Each Tree.Shaped) (byReference inner) := by
  unfold byReference
  infer_instance

theorem yields_reference : Yields (fun ts => ∃ t, ts = [t] ∧ t.Shaped ∧ t.hasKind .reference = true)
    (byReference inner) :=
  .bind (P := Each Tree.Shaped) inferInstance fun _ shaped =>
    .pure ⟨_, rfl, shaped_node.2 ⟨.free rfl, shaped⟩, rfl⟩

theorem Slot.shaped_single {e : Slot} {t : Tree} (alone : e.trees = [t]) (shaped : t.Shaped) :
    e.Shaped := by
  rw [Slot.Shaped, alone]
  exact ⟨.single, each_singleton shaped⟩

theorem Slot.shaped_keyed {e : Slot} {key arrow value : Tree} (trees : e.trees = [key, arrow, value])
    (k : key.Shaped ∧ key.IsExpression) (a : arrow.IsToken) (v : value.Shaped)
    (kind : value.IsExpression ∨ value.hasKind .reference = true) : e.Shaped := by
  rw [Slot.Shaped, trees]
  obtain ⟨before, text, rfl⟩ := a
  refine ⟨.keyed k.2 ⟨before, text, rfl⟩ kind, ?_⟩
  exact List.forall_mem_cons.2 ⟨k.1, List.forall_mem_cons.2 ⟨HoldsOfTokens.token _ _,
    each_singleton v⟩⟩

instance yields_element : Yields Slot.Shaped (element inner) := by
  refine .peek fun s => ?_
  split
  · refine .bind (P := fun ts => ∃ t, ts = [t] ∧ t.Shaped) ?_ fun ts ⟨t, one, shaped⟩ =>
      .pure (Slot.shaped_single one shaped)
    exact .bind (P := Each Tree.Shaped) inferInstance fun _ shaped =>
      .pure ⟨_, rfl, shaped_node.2 ⟨.free rfl, shaped⟩⟩
  · exact .bind yields_reference fun ts ⟨t, one, shaped, _⟩ => .pure (Slot.shaped_single one shaped)
  · refine .bind (Inner.Sound.expression false) fun key k => .peek fun next => ?_
    split
    · refine .bind (Yields.oneLexeme _) fun _ ⟨arrow, one, a⟩ => .peek fun next => ?_
      subst one
      split
      · refine .bind yields_reference fun _ ⟨value, one, v, reference⟩ => .pure ?_
        subst one
        exact Slot.shaped_keyed rfl k a v (.inr reference)
      · refine .bind (Inner.Sound.expression false) fun value v => .pure ?_
        exact Slot.shaped_keyed rfl k a v.1 (.inl v.2)
    · exact .pure (Slot.shaped_single rfl k.1)

def InBrackets (t : Tree) : Prop := (t.IsToken ∨ t.hasKind .element = true) ∧ t.Shaped

instance holdsOfTokens_inBrackets : HoldsOfTokens InBrackets where
  token before text := ⟨.inl ⟨before, text, rfl⟩, HoldsOfTokens.token before text⟩

theorem Slot.inBrackets {e : Slot} (h : e.trees = [] ∨ e.Shaped) :
    Each InBrackets (if e.trees.isEmpty then [] else [.node .element e.trees]) := by
  rcases h with empty | shaped
  · rw [empty]
    exact nofun
  · split
    · exact nofun
    · exact each_singleton ⟨.inr rfl, shaped_node.2 shaped⟩

theorem yields_slots (fuel : Nat) :
    Yields (fun found : List Slot × List Tree => Each InBrackets found.2) (slots inner fuel) := by
  induction fuel with
  | zero => exact .failure
  | succ fuel ih =>
    have filled : Yields (fun e : Slot => e.trees = [] ∨ e.Shaped) (element inner) :=
      yields_element.mono fun _ => .inr
    have vacant : Yields (fun e : Slot => e.trees = [] ∨ e.Shaped) (pure {}) := .pure (.inl rfl)
    have place : Yields (fun e : Slot => e.trees = [] ∨ e.Shaped) (element inner <|> pure {}) :=
      .orElse
    refine .bind place fun e given => .peek fun next => ?_
    have own := Slot.inBrackets given
    split
    · refine .bind (P := Each InBrackets) inferInstance fun comma token => ?_
      exact .bind ih fun (es, ts) rest => .pure ((own.append token).append rest)
    · exact .pure own

theorem shaped_array {ts : List Tree} (h : Each InBrackets ts) : (Tree.node .array ts).Shaped :=
  shaped_node.2 ⟨.array fun t member => (h t member).1, fun t member => (h t member).2⟩

instance yields_valueElement : Yields (Each InBrackets) (valueElement inner) := by
  have given : Yields (fun ts => Form .element ts ∧ Each Tree.Shaped ts)
      (do let e ← element inner; if e.isValue then pure e.trees else failure : Rule) := by
    refine .bind yields_element fun e shaped => ?_
    split
    · exact .pure shaped
    · infer_instance
  exact .asNode fun ts shaped => ⟨.inr rfl, shaped_node.2 shaped⟩

instance yields_bracketed : Yields Operand.Shaped (bracketed inner) := by
  refine .bind (P := Each InBrackets) inferInstance fun start opening => .peek fun s => ?_
  refine .bind (yields_slots _) fun (es, ts) places => ?_
  refine .bind (P := Each InBrackets) inferInstance fun stop closing => ?_
  dsimp only
  split
  · exact .pure ⟨shaped_array ((opening.append places).append closing), _, _, rfl, rfl⟩
  · infer_instance

instance yields_listPattern : Yields Operand.Shaped (listPattern inner) := by
  refine .bind (P := Each InBrackets) inferInstance fun start opening => .peek fun s => ?_
  refine .bind (yields_slots _) fun (es, ts) places => ?_
  refine .bind (P := Each InBrackets) inferInstance fun stop closing => ?_
  split
  · refine .pure ⟨shaped_node.2 ⟨.free rfl, fun t member => ?_⟩, _, _, rfl, rfl⟩
    exact (((opening.append places).append closing) t member).2
  · infer_instance

/-! ### Functions, objects and matches -/

instance yields_captured : Yields (Each Tree.Shaped) captured := by
  unfold captured
  infer_instance

instance yields_closure : Yields (Each Tree.Shaped) (closure inner atEnd) := by
  refine .bind (P := Each Tree.Shaped) inferInstance fun start shaped => .peek fun w => ?_
  have started := Yields.pure shaped
  split <;> infer_instance

instance yields_classAccess : Yields (Each Tree.Shaped) (classAccess inner) := by
  unfold classAccess
  infer_instance

instance yields_classReference : Yields (Each Tree.Shaped) (classReference inner) := by
  refine @Yields.unformed _ .plain (.peek fun next => ?_) rfl
  split <;> infer_instance

instance yields_object : Yields Operand.Shaped (object inner) := by
  refine .bind (P := Each Tree.Shaped) inferInstance fun start shaped => ?_
  have started := Yields.pure shaped
  refine .peek fun next => .peek fun w => ?_
  split
  · infer_instance
  · refine .bind (P := Each Tree.Shaped) inferInstance fun class_ shaped' => .peek fun next => ?_
    have named := Yields.pure (shaped.append shaped')
    split
    · infer_instance
    · exact .pure ⟨shaped_node.2 ⟨.free rfl, shaped.append shaped'⟩, _, _, rfl, rfl⟩

instance yields_arm : Yields (Each Tree.Shaped) (choice.arm inner) := by
  refine .peek fun w => ?_
  split <;> infer_instance

instance yields_choice : Yields (Each Tree.Shaped) (choice inner) := by
  unfold choice
  infer_instance

/-! ### Operands -/

instance yields_scope : Yields Operand.Shaped scope := by
  refine .bind (P := Operand.Shaped) inferInstance fun e shaped => .peek fun next => ?_
  split
  · exact .pure shaped
  · exact .pure shaped
  · infer_instance

instance yields_worded : Yields Operand.Shaped (worded inner atEnd) := by
  have elements : Yields (Each Tree.Shaped) (Rule.asNode .array <|
      Rule.word "array" ++ Rule.sign "(" ++ Rule.list (valueElement inner) ++ Rule.sign ")") :=
    .asNode (R := Each InBrackets) fun _ => shaped_array
  refine .peek fun w => ?_
  split
  case h_1 => exact yields_wholeNode (.isExpression rfl)
  case h_7 =>
    refine .peek fun s => .peek fun _ => .peek fun next => .peek fun _ => ?_
    split <;> infer_instance
  case h_12 =>
    split
    · infer_instance
    · refine .peek fun s => ?_
      split
      · infer_instance
      · exact yields_wholeNode (.isExpression rfl)
  all_goals infer_instance

instance yields_primary : Yields Operand.Shaped (primary inner atEnd) := by
  have single : Yields Operand.Shaped (whole .group Quoted.single) :=
    yields_wholeNode (.isExpression rfl)
  have template : Yields Operand.Shaped (whole .group (Quoted.template inner)) :=
    yields_wholeNode (.isExpression rfl)
  have command : Yields Operand.Shaped (whole .closed (Quoted.command inner)) :=
    yields_wholeNode (.isExpression rfl)
  have document : Yields Operand.Shaped (whole .group (Quoted.document inner)) :=
    yields_whole Quoted.yields_document
  have group : Yields Operand.Shaped (whole .group inner.parenthesized) :=
    yields_wholeNode (.isExpression rfl)
  refine .peek fun s => ?_
  split <;> infer_instance

def IsMember (ts : List Tree) : Prop := ∃ before method after,
  ts = before ++ .node .method method :: after ∧ Each IsToken before ∧ Each IsToken after

theorem yields_member {p : Rule} :
    Yields IsMember (Rule.asNode .method p) :=
  .bind (P := fun _ => True) inferInstance fun ts _ => .pure ⟨[], ts, [], rfl, nofun, nofun⟩

theorem yields_bracedMember {p : Rule} : Yields IsMember (Rule.braced (Rule.asNode .method p)) := by
  refine .bind (P := IsMember) ?_ fun member given => ?_
  · refine .bind (P := Each IsToken) inferInstance fun opening tokens => ?_
    refine .bind yields_member fun member ⟨before, method, after, same, b, a⟩ => .pure ?_
    exact ⟨opening ++ before, method, after, by rw [same, List.append_assoc], tokens.append b, a⟩
  · refine .bind (P := Each IsToken) inferInstance fun closing tokens => .pure ?_
    obtain ⟨before, method, after, same, b, a⟩ := given
    exact ⟨before, method, after ++ closing, by rw [same]; simp, b, a.append tokens⟩

theorem yields_callArguments : Yields (fun ts => ∃ parts, ts = [.node .arguments parts] ∧
    Each Tree.Shaped [.node .arguments parts]) inner.arguments := by
  have node : Yields (fun ts => ∃ parts, ts = [.node .arguments parts]) inner.arguments :=
    .bind (P := fun _ => True) inferInstance fun parts _ => .pure ⟨parts, rfl⟩
  refine (node.and Inner.yields_arguments).mono fun ts ⟨⟨parts, same⟩, shaped⟩ => ?_
  exact ⟨parts, same, same ▸ shaped⟩

theorem yields_called {t link : Tree} {member : List Tree} (shape : Shape) (shaped : t.Shaped)
    (isToken : link.IsToken) (isMember : IsMember member) (memberShaped : Each Tree.Shaped member) :
    Yields Operand.Shaped (do
      if (← Rule.nextSign?) = some "(" then
        pure ⟨.node .staticCall (.node .scope [t] :: [link] ++ member ++ (← inner.arguments)), .place⟩
      else pure ⟨.node .plain (.node .scope [t] :: [link] ++ member), shape⟩) := by
  have inScope : (Tree.node .scope [t]).Shaped := shaped_node.2 ⟨.free rfl, each_singleton shaped⟩
  obtain ⟨blanks, text, rfl⟩ := isToken
  have parts : Each Tree.Shaped (.node .scope [t] :: [.token blanks text] ++ member) := Each.append
    (List.forall_mem_cons.2 ⟨inScope, each_singleton (HoldsOfTokens.token _ _)⟩) memberShaped
  refine .peek fun next => ?_
  split
  · refine .bind yields_callArguments fun _ ⟨arguments, one, argumentsShaped⟩ => .pure ?_
    subst one
    refine ⟨shaped_node.2 ⟨?_, parts.append argumentsShaped⟩, _, _, rfl, rfl⟩
    obtain ⟨before, method, after, rfl, b, a⟩ := isMember
    have form := @Form.staticCall t _ before method after arguments ⟨blanks, text, rfl⟩ b a
    simpa using form
  · exact .pure ⟨shaped_node.2 ⟨.free rfl, parts⟩, _, _, rfl, rfl⟩

theorem yields_scopeAccess {t : Tree} (shaped : t.Shaped) :
    Yields Operand.Shaped (scopeAccess inner t) := by
  refine .bind (Yields.oneLexeme _) fun _ ⟨link, one, isToken⟩ => .peek fun next => ?_
  subst one
  have written := yields_member (p := Rule.name)
  have computed := yields_bracedMember (p := inner.value false)
  dsimp only
  split
  · refine .bind (P := fun ts => IsMember ts ∧ Each Tree.Shaped ts)
      (yields_member.and inferInstance) fun member given => ?_
    exact yields_called _ shaped isToken given.1 given.2
  · refine .bind (P := fun ts => IsMember ts ∧ Each Tree.Shaped ts)
      (Yields.orElse.and inferInstance) fun member given => ?_
    exact yields_called _ shaped isToken given.1 given.2

/-- Accesses keep an operand shaped: each makes a plain node around it, or a call. -/
theorem yields_accesses (fuel : Nat) {e : Operand} (shaped : e.Shaped) :
    Yields Operand.Shaped (accesses inner atEnd fuel e) := by
  induction fuel generalizing e with
  | zero => exact .pure shaped
  | succ fuel ih =>
    have left := Yields.pure (each_singleton shaped.1)
    have stop := Yields.pure shaped
    -- What follows an operand becomes one plain node with it.
    have follow : ∀ p : Rule, Yields (Each Tree.Shaped) p → Yields Operand.Shaped (do
        accesses inner atEnd fuel ⟨.node .plain (e.tree :: (← p)), .place⟩) := by
      intro p given
      refine .bind given fun ts shaped' => ih ⟨shaped_node.2 ⟨.free rfl, ?_⟩, _, _, rfl, rfl⟩
      exact List.forall_mem_cons.2 ⟨shaped.1, shaped'⟩
    refine .peek fun closes => ?_
    split
    · exact stop
    · refine .peek fun next => ?_
      have subscripted := follow (subscript inner) inferInstance
      have called := follow inner.arguments inferInstance
      have arrow := follow (Rule.sign "->" ++ memberName inner) inferInstance
      have optional := follow (Rule.sign "?->" ++ memberName inner) inferInstance
      have braced := follow (Rule.braced (inner.value false)) inferInstance
      have member : Yields Operand.Shaped (do
          accesses inner atEnd fuel (← scopeAccess inner e.tree)) :=
        .bind (yields_scopeAccess shaped.1) fun _ shaped => ih shaped
      dsimp only
      split <;> infer_instance

instance yields_accessed : Yields Operand.Shaped (accessed inner atEnd) :=
  .peek fun _ => .bind yields_primary fun _ shaped => yields_accesses _ shaped

/-! ### Operators -/

instance yields_branches : Yields (Each Tree.Shaped) (branches inner atEnd) := by
  refine .bind (P := Each Tree.Shaped) inferInstance fun start shaped => .peek fun next => ?_
  have started := Yields.pure shaped
  split <;> infer_instance

theorem yields_joined {e : Operand} (shaped : e.Shaped) :
    Yields Operand.Shaped (joined inner atEnd e) := by
  have left := Yields.pure (each_singleton shaped.1)
  have stop := Yields.pure shaped
  refine .peek fun closes => ?_
  split
  · exact stop
  · refine .peek fun next => ?_
    split
    case h_4 => exact .peek fun w => inferInstance
    all_goals infer_instance

theorem yields_tested {e : Operand} (shaped : e.Shaped) : Yields Operand.Shaped (tested inner e) := by
  have left := Yields.pure (each_singleton shaped.1)
  refine .peek fun w => ?_
  split
  · refine .bind (P := Operand.Shaped) inferInstance fun t tested => .peek fun w => ?_
    have stop := Yields.pure tested
    infer_instance
  · exact .pure shaped

instance yields_cast : Yields (Each Tree.Shaped) cast := by
  unfold cast
  infer_instance

instance yields_converted : Yields (Each Tree.Shaped) (converted inner atEnd) := by
  refine .bind (P := Each Tree.Shaped) inferInstance fun start shaped => .peek fun w => ?_
  have started := Yields.pure shaped
  split <;> infer_instance

instance yields_given : Yields (Each Tree.Shaped) (yielded.given inner atEnd) := by
  unfold yielded.given
  infer_instance

instance yields_yielded : Yields (Each Tree.Shaped) (yielded inner atEnd) := by
  refine .bind (P := Each Tree.Shaped) inferInstance fun start shaped => .peek fun closes => ?_
  have started := Yields.pure shaped
  split
  · infer_instance
  · refine .peek fun w => ?_
    split <;> infer_instance

instance yields_read : Yields Operand.Shaped (read inner atEnd) := by
  refine .peek fun next => ?_
  split
  case h_6 =>
    refine .peek fun s => ?_
    split
    · infer_instance
    · refine .peek fun w => ?_
      split
      case h_8 =>
        refine .bind (P := Each Tree.Shaped) inferInstance fun start shaped => ?_
        refine .bind yields_accessed fun e accessed => ?_
        split
        · refine yields_joined ⟨shaped_node.2 ⟨.free rfl, ?_⟩, _, _, rfl, rfl⟩
          exact shaped.append (each_singleton accessed.1)
        · infer_instance
      case h_9 =>
        exact .bind yields_accessed fun e accessed => .bind (yields_tested accessed) fun e tested =>
          yields_joined tested
      all_goals infer_instance
  all_goals infer_instance

end Expression

namespace Statement

open Expression

instance yields_until (words : List String) : Yields (Each Shaped) (until_ inner words) := by
  have next : Yields (Each Shaped) (do
      if words.contains (← Rule.nextWord) then failure else inner.statement : Rule) :=
    .peek fun _ => inferInstance
  unfold until_
  infer_instance

instance yields_body (last : String) : Yields (Each Shaped) (body inner last) :=
  .peek fun _ => inferInstance

instance yields_branch : Yields (Each Shaped) (branch inner) := by
  refine .bind (P := Each Shaped) inferInstance fun start shaped => .peek fun next => ?_
  have started := Yields.pure shaped
  dsimp only
  split <;> infer_instance

instance yields_counted : Yields (Each Shaped) (counted inner) := by
  unfold counted
  infer_instance

instance yields_taken : Yields (Each Shaped) (each.taken inner) := by
  unfold each.taken
  infer_instance

instance yields_each : Yields (Each Shaped) (each inner) := by
  unfold each
  infer_instance

instance yields_case (words : List String) : Yields (Each Shaped) (switch.case inner words) := by
  unfold switch.case
  infer_instance

instance yields_switch : Yields (Each Shaped) (switch inner) := by
  refine .bind (P := Each Shaped) inferInstance fun start shaped => .peek fun next => ?_
  have started := Yields.pure shaped
  split <;> infer_instance

instance yields_guarded : Yields (Each Shaped) (guarded inner) := by
  unfold guarded guarded.handler
  infer_instance

instance yields_literal : Yields (Each Shaped) literal := by
  unfold literal
  infer_instance

instance yields_setting : Yields (Each Shaped) setting := by
  unfold setting
  infer_instance

instance yields_declaration : Yields (Each Shaped) (declaration inner) := by
  refine .bind (P := Each Shaped) inferInstance fun start shaped => .peek fun closes => ?_
  have started := Yields.pure shaped
  split <;> infer_instance

instance yields_namespaced : Yields (Each Shaped) (namespaced inner) := by
  unfold namespaced
  infer_instance

instance yields_imported : Yields (Each Shaped) imported := by
  unfold imported imported.group imported.clause imported.kind imported.path imported.renamed
  infer_instance

theorem yields_declared : Yields (fun p : Option Rule => ∀ q, p = some q → Yields (Each Shaped) q)
    (declared? inner) := by
  have declares : ∀ p : Rule, Yields (Each Shaped) p →
      Yields (fun p : Option Rule => ∀ q, p = some q → Yields (Each Shaped) q) (pure (some p)) :=
    fun p given => .pure fun q same => Option.some.inj same ▸ given
  have nothing : Yields (fun p : Option Rule => ∀ q, p = some q → Yields (Each Shaped) q)
      (pure none) := .pure nofun
  refine .peek fun w => ?_
  split
  case h_9 =>
    refine .peek fun named => ?_
    split
    · exact declares _ inferInstance
    · exact nothing
  case h_10 => exact nothing
  all_goals exact declares _ inferInstance

instance yields_evaluated : Yields (Each Shaped) (evaluated inner) := by
  unfold evaluated
  infer_instance

instance yields_optionalValue : Yields (Each Shaped) (optionalValue inner) :=
  .peek fun _ => inferInstance

instance yields_worded (w : String) : Yields (Each Shaped) (worded inner w) := by
  unfold worded
  -- Three words start two kinds of statements each; what comes next decides.
  split <;> first | infer_instance | exact .peek fun _ => inferInstance

instance yields_read : Yields (Each Shaped) (read inner) := by
  refine @Yields.unformed _ .plain (.peek fun next => ?_) rfl
  split
  · infer_instance
  · refine .peek fun s => .bind (P := Each Shaped) inferInstance fun marks shaped => ?_
    have marked := Yields.pure shaped
    refine .bind yields_declared fun p declared => ?_
    split
    · next q =>
      have given := declared q rfl
      infer_instance
    · exact .peek fun _ => inferInstance
  · refine .bind yields_declared fun p declared => ?_
    split
    · next q => exact declared q rfl
    · refine .peek fun w => ?_
      split
      · exact .peek fun _ => inferInstance
      · infer_instance

end Statement

end Level

instance sound_inner (depth : Nat) : (inner depth).Sound := by
  induction depth with
  | zero => exact ⟨fun _ => .failure, .failure⟩
  | succ depth ih => exact ⟨fun _ => Expression.yields_read, Statement.yields_read⟩

instance yields_script : Yields (Each Shaped) script := by
  refine .peek fun s => .peek fun _ => ?_
  have markup := Yields.pure (Yields.each_token (P := Shaped) [] (Trivia.markupEnd s).1)
  infer_instance

theorem shaped_of_parse? {source : String} {t : Tree} (h : parse? source = some t) : t.Shaped := by
  simp only [parse?, Option.bind_eq_bind, Option.bind_eq_some_iff] at h
  obtain ⟨⟨ts, r⟩, read, h⟩ := h
  split at h
  · cases h
    exact shaped_node.2 ⟨.free rfl, yields_script.yields read⟩
  · cases h

end BlueprintSchema.Script
