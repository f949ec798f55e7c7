import BlueprintSchema.Proofs.Script.Reading
import BlueprintSchema.Script.ClassBody
import BlueprintSchema.Script.Quoted

/-! The form of the constructs that the search for computed fields tells apart: a call through `::` has
a scope, a method and arguments, an argument ends with its value, and an element is a value, perhaps
after a key and an arrow. All nodes of a tree that a rule gives have the form of their kind, as long as
the rules for what stands one level deeper give such trees. Main statement: `Inner.Sound`. -/

namespace BlueprintSchema.Script

namespace Tree

def IsToken (t : Tree) : Prop := ∃ before text, t = .token before text

end Tree

def Kind.isExpression : Kind → Bool
  | .plain | .staticCall | .array | .string | .template | .heredoc | .nowdoc => true
  | _ => false

def Tree.IsExpression (t : Tree) : Prop := ∃ kind parts, t = .node kind parts ∧ kind.isExpression

def Kind.isFree : Kind → Bool
  | .staticCall | .arguments | .argument | .array | .element => false
  | _ => true

inductive Form : Kind → List Tree → Prop
  | staticCall {scope link : Tree} {before method after arguments : List Tree} :
    link.IsToken → Each Tree.IsToken before → Each Tree.IsToken after →
      Form .staticCall (.node .scope [scope] :: link :: before ++ .node .method method :: after ++
        [.node .arguments arguments])
  | arguments {parts : List Tree} :
    Each (fun t => t.IsToken ∨ t.hasKind .argument = true) parts → Form .arguments parts
  | argument {front : List Tree} {value : Tree} :
    Each Tree.IsToken front → Form .argument (front ++ [value])
  | array {parts : List Tree} :
    Each (fun t => t.IsToken ∨ t.hasKind .element = true) parts → Form .array parts
  | single {value : Tree} : Form .element [value]
  | keyed {key arrow value : Tree} : key.IsExpression → arrow.IsToken →
    value.IsExpression ∨ value.hasKind .reference = true → Form .element [key, arrow, value]
  | free {kind : Kind} {parts : List Tree} : kind.isFree = true → Form kind parts

namespace Tree

def Shaped (t : Tree) : Prop := ∀ n ∈ t.nodes, Form n.1 n.2

theorem mem_nodesOf {n : Kind × List Tree} {ts : List Tree} :
    n ∈ nodesOf ts ↔ ∃ t ∈ ts, n ∈ t.nodes := by
  induction ts with
  | nil => simp [nodesOf]
  | cons t ts ih => simp [nodesOf, ih]

theorem shaped_node {kind : Kind} {parts : List Tree} :
    Shaped (.node kind parts) ↔ Form kind parts ∧ Each Shaped parts := by
  simp only [Shaped, Each, nodes, List.mem_cons, mem_nodesOf]
  constructor
  · exact fun h => ⟨h _ (.inl rfl), fun t member n inside => h n (.inr ⟨t, member, inside⟩)⟩
  · rintro ⟨own, below⟩ n (rfl | ⟨t, member, inside⟩)
    · exact own
    · exact below t member n inside

instance holdsOfTokens_shaped : HoldsOfTokens Shaped where
  token before text n member := by simp [nodes] at member

instance holdsOfTokens_isToken : HoldsOfTokens IsToken where
  token before text := ⟨before, text, rfl⟩

instance holdsOfTokens_or {P : Tree → Prop} : HoldsOfTokens fun t => t.IsToken ∨ P t where
  token before text := .inl ⟨before, text, rfl⟩

theorem each_singleton {P : Tree → Prop} {t : Tree} (h : P t) : Each P [t] :=
  fun _ member => List.mem_singleton.1 member ▸ h

end Tree

open BlueprintSchema.Script.Tree

def Operand.Shaped (e : Operand) : Prop := e.tree.Shaped ∧ e.tree.IsExpression

namespace Yields

variable {p : Rule}

theorem and {α : Type} {P Q : α → Prop} {p : Reader α} (h : Yields P p) (h' : Yields Q p) :
    Yields (fun a => P a ∧ Q a) p where
  yields e := ⟨h.yields e, h'.yields e⟩

theorem formed {kind : Kind} [h : Yields (Each Shaped) p] (form : Yields (Form kind) p) :
    Yields (Each Shaped) (Rule.asNode kind p) :=
  have := form.and h
  asNode (R := fun ts => Form kind ts ∧ Each Shaped ts) fun _ both => shaped_node.2 both

theorem unformed {kind : Kind} [Yields (Each Shaped) p] (h : kind.isFree = true) :
    Yields (Each Shaped) (Rule.asNode kind p) :=
  asNode (R := Each Shaped) fun _ shaped => shaped_node.2 ⟨.free h, shaped⟩

theorem oneLexeme (take : List Char → Option (List Char × List Char)) :
    Yields (fun ts => ∃ t, ts = [t] ∧ t.IsToken) (Rule.lexeme take) :=
  peek fun _ => peek fun _ => peek fun _ => .pure ⟨_, rfl, _, _, rfl⟩

instance plainNode [Yields (Each Shaped) p] : Yields (Each Shaped) (Rule.asNode .plain p) :=
  unformed rfl

instance referenceNode [Yields (Each Shaped) p] :
    Yields (Each Shaped) (Rule.asNode .reference p) :=
  unformed rfl

instance methodNode [Yields (Each Shaped) p] : Yields (Each Shaped) (Rule.asNode .method p) :=
  unformed rfl

instance stringNode [Yields (Each Shaped) p] : Yields (Each Shaped) (Rule.asNode .string p) :=
  unformed rfl

theorem isExpression {kind : Kind} (h : kind.isExpression = true) :
    Yields (Each IsExpression) (Rule.asNode kind p) :=
  asNode (R := fun _ => True) fun ts _ => ⟨kind, ts, rfl, h⟩

end Yields

class Inner.Sound (inner : Inner) : Prop where
  expression : ∀ atEnd, Yields Operand.Shaped (inner.expression atEnd)
  statement : Yields (Each Shaped) inner.statement

namespace Inner

variable {inner : Inner} [inner.Sound] {atEnd : Bool}

instance yields_statement : Yields (Each Shaped) inner.statement := Sound.statement

theorem yields_chosen (atEnd : Bool) (c : Operand → Bool) :
    Yields (fun ts => Each Shaped ts ∧ ∃ t, ts = [t])
      (do let e ← inner.expression atEnd; if c e then pure [e.tree] else failure : Rule) := by
  refine .bind (Sound.expression atEnd) fun e shaped => ?_
  split
  · exact .pure ⟨each_singleton shaped.1, e.tree, rfl⟩
  · infer_instance

instance yields_value : Yields (Each Shaped) (inner.value atEnd) :=
  (yields_chosen atEnd fun e => e.shape.isValue).mono fun _ => And.left

instance yields_valueOrTarget : Yields (Each Shaped) inner.valueOrTarget :=
  (yields_chosen false fun e => e.shape.isValue || e.shape.isTarget).mono fun _ => And.left

instance yields_place : Yields (Each Shaped) inner.place :=
  (yields_chosen false fun e => e.shape.isPlace).mono fun _ => And.left

instance yields_parenthesized : Yields (Each Shaped) inner.parenthesized := by
  unfold parenthesized
  infer_instance

instance yields_block : Yields (Each Shaped) inner.block := by
  unfold block
  infer_instance

instance yields_argumentName {P : Tree → Prop} [HoldsOfTokens P] : Yields (Each P) argumentName :=
  .peek fun _ => inferInstance

instance yields_classWord {P : Tree → Prop} [HoldsOfTokens P] : Yields (Each P) classWord := by
  unfold classWord
  infer_instance

theorem form_argument_of_single {ts : List Tree} (h : ∃ t, ts = [t]) : Form .argument ts := by
  obtain ⟨t, rfl⟩ := h
  exact @Form.argument [] t nofun

theorem form_argument_append {p q : Rule} [front : Yields (Each IsToken) p]
    (rest : Yields (Form .argument) q) : Yields (Form .argument) (p ++ q) := by
  refine .bind front fun before tokens => .bind rest fun ts form => .pure ?_
  cases form with
  | @argument more value moreTokens =>
    rw [← List.append_assoc]
    exact .argument (tokens.append moreTokens)
  | free no => nomatch no

instance yields_argument : Yields (Each Shaped) (arguments.argument inner) := by
  unfold arguments.argument
  infer_instance

theorem form_argument : Yields (Form .argument) (arguments.argument inner) := by
  have unpacked : Yields (Form .argument)
      (Rule.asNode .plain (Rule.sign "..." ++ inner.value false)) :=
    .peek fun _ => .pure (form_argument_of_single ⟨_, rfl⟩)
  have value : Yields (Form .argument) (inner.value false) :=
    (yields_chosen false fun e => e.shape.isValue).mono fun _ h => form_argument_of_single h.2
  have word : Yields (Form .argument) classWord :=
    (Yields.oneLexeme _).mono fun _ ⟨t, one, _⟩ => form_argument_of_single ⟨t, one⟩
  have given : Yields (Form .argument) (Rule.opt (Rule.sign "&") ++ (inner.value false <|> classWord)) :=
    form_argument_append inferInstance
  exact .orElse

instance yields_arguments : Yields (Each Shaped) inner.arguments := by
  have one : Yields (Each Shaped)
      (Rule.asNode .argument <| Rule.opt argumentName ++ arguments.argument inner) :=
    .formed (form_argument_append form_argument)
  have kinds : Yields (Each fun t => t.IsToken ∨ t.hasKind .argument = true)
      (Rule.asNode .argument <| Rule.opt argumentName ++ arguments.argument inner) :=
    .asNode (R := fun _ => True) fun _ _ => .inr rfl
  exact .formed (.mono inferInstance fun _ => .arguments)

end Inner

variable {inner : Inner} [inner.Sound] {atEnd : Bool}

namespace Signature

instance yields_qualifiedName : Yields (Each Shaped) qualifiedName := by
  unfold qualifiedName
  infer_instance

instance yields_variableName : Yields (Each Shaped) variableName := by
  unfold variableName
  infer_instance

instance yields_type : Yields (Each Shaped) type := by
  unfold type type.unionEnd type.group
  infer_instance

instance yields_resultType : Yields (Each Shaped) resultType := by
  unfold resultType
  infer_instance

instance yields_attributes : Yields (Each Shaped) (attributes inner) := by
  unfold attributes
  infer_instance

instance yields_visibility : Yields (Each Shaped) visibility := by
  unfold visibility
  infer_instance

instance yields_default : Yields (Each Shaped) (default inner) := by
  unfold default
  infer_instance

instance yields_accessors {p : Rule} [Yields (Each Shaped) p] :
    Yields (Each Shaped) (accessors inner p) := by
  unfold accessors accessors.accessor
  infer_instance

instance yields_plainParameters : Yields (Each Shaped) (plainParameters inner) := by
  unfold plainParameters
  infer_instance

instance yields_parameters : Yields (Each Shaped) (parameters inner) := by
  unfold parameters
  infer_instance

instance yields_heading {p : Rule} [Yields (Each Shaped) p] :
    Yields (Each Shaped) (heading inner p) := by
  unfold heading
  infer_instance

end Signature

namespace ClassBody

instance yields_constants : Yields (Each Shaped) (constants inner) := by
  unfold constants
  infer_instance

instance yields_modifier : Yields (Each Shaped) modifier := by
  unfold modifier
  infer_instance

instance yields_adaptation : Yields (Each Shaped) adaptation := by
  unfold adaptation
  infer_instance

instance yields_traitUse : Yields (Each Shaped) traitUse := by
  unfold traitUse
  infer_instance

instance yields_property : Yields (Each Shaped) (property inner) := by
  unfold property
  infer_instance

instance yields_member (owner : Owner) : Yields (Each Shaped) (member inner owner) := by
  refine .peek fun w => ?_
  split
  · infer_instance
  · refine .bind (P := Each Shaped) inferInstance fun marks shaped => ?_
    refine .bind (P := Each Shaped) inferInstance fun modifiers shaped' => .peek fun w => ?_
    have marked := Yields.pure shaped
    have given := Yields.pure (shaped.append shaped')
    split
    · infer_instance
    · infer_instance
    · split <;> infer_instance
    · split <;> infer_instance

instance yields_members (owner : Owner) : Yields (Each Shaped) (members inner owner) := by
  unfold members
  infer_instance

instance yields_extending : Yields (Each Shaped) extending := by
  unfold extending
  infer_instance

instance yields_implementing : Yields (Each Shaped) implementing := by
  unfold implementing
  infer_instance

instance yields_classEnd : Yields (Each Shaped) (classEnd inner) := by
  unfold classEnd
  infer_instance

end ClassBody

namespace Quoted

variable {P : Tree → Prop} [HoldsOfTokens P]

instance yields_single : Yields (Each Shaped) single := by
  unfold single
  infer_instance

instance yields_bare (take : List Char → Option (List Char × List Char)) :
    Yields (Each P) (bare take) :=
  .peek fun _ => .peek fun _ => .peek fun _ => .pure (Yields.each_token _ _)

instance yields_exactly (t : String) : Yields (Each P) (exactly t) := by
  unfold exactly
  infer_instance

instance yields_integer : Yields (Each P) integer := by
  unfold integer
  infer_instance

instance yields_bareName : Yields (Each P) bareName := by
  unfold bareName
  infer_instance

instance yields_simpleKey : Yields (Each P) simpleKey := by
  unfold simpleKey
  infer_instance

instance yields_interpolation : Yields (Each Shaped) (interpolation inner) := by
  refine @Yields.unformed _ .interpolation (.peek fun s => ?_) rfl
  split
  · infer_instance
  · infer_instance
  · refine .bind (P := Each Shaped) inferInstance fun v shaped => .peek fun s => ?_
    have given := Yields.pure shaped
    split <;> infer_instance

instance yields_piece (text : List Char) : Yields (Each P) (pure [.token [] text] : Rule) :=
  .pure (Yields.each_token [] text)

instance yields_nothing : Yields (Each P) (pure [] : Rule) := .nothing

instance yields_templateEnd (quote : Char) (fuel : Nat) :
    Yields (Each Shaped) (templateEnd inner quote fuel) := by
  induction fuel with
  | zero => exact .failure
  | succ fuel ih =>
    refine .peek fun s => .peek fun _ => ?_
    dsimp only
    split
    · infer_instance
    · split <;> split <;> infer_instance

instance yields_template : Yields (Each Shaped) (template inner) := by
  refine @Yields.unformed _ .template ?_ rfl
  refine .bind (P := Each Shaped) inferInstance fun opening shaped => .peek fun s => ?_
  have opened := Yields.pure shaped
  infer_instance

instance yields_command : Yields (Each Shaped) (command inner) := by
  refine @Yields.unformed _ .plain ?_ rfl
  refine .bind (P := Each Shaped) inferInstance fun opening shaped => .peek fun s => ?_
  have opened := Yields.pure shaped
  infer_instance

instance yields_closing (gap tag : List Char) : Yields (Each Shaped) (closing gap tag) := by
  refine @Yields.unformed _ .ending ?_ rfl
  exact .peek fun _ => .peek fun _ => .pure (Yields.each_token _ _)

instance yields_lines (tag : List Char) (fuel : Nat) :
    Yields (Each Shaped) (lines inner tag fuel) := by
  induction fuel with
  | zero => exact .failure
  | succ fuel ih =>
    refine .peek fun s => ?_
    dsimp only
    split
    · split
      · exact .nothing
      · infer_instance
    · refine .peek fun _ => ?_
      split
      · infer_instance
      · split <;> split <;> infer_instance

instance yields_rawLines (tag : List Char) (fuel : Nat) :
    Yields (Each Shaped) (rawLines tag fuel) := by
  induction fuel with
  | zero => exact .failure
  | succ fuel ih =>
    refine .peek fun s => ?_
    dsimp only
    split
    · infer_instance
    · refine .peek fun _ => ?_
      split <;> infer_instance

theorem yields_opening : Yields (fun o : Tree × List Char × Bool => o.1.Shaped) opening := by
  refine .peek fun s => ?_
  dsimp only
  split
  · split
    · exact .peek fun _ => .pure (HoldsOfTokens.token _ _)
    · infer_instance
  · infer_instance

theorem yields_filled {kind : Kind} (free : kind.isFree = true) (isExpression : kind.isExpression = true)
    {start : Tree} (opened : start.Shaped) {p : Rule} [Yields (Each Shaped) p] (blanks tag : List Char) :
    Yields (Each fun t => t.Shaped ∧ t.IsExpression) (do
      let body ← p
      let last ← closing ((← get).takeWhile isSpace) tag
      pure [.node kind (start :: .token [.blank blanks] [] :: .node .body body :: last)] : Rule) := by
  refine .bind (P := Each Shaped) inferInstance fun body inside => .peek fun _ => ?_
  refine .bind (P := Each Shaped) inferInstance fun last shaped => .pure (each_singleton ?_)
  refine ⟨shaped_node.2 ⟨.free free, ?_⟩, _, _, rfl, isExpression⟩
  have bodyShaped : (Tree.node .body body).Shaped := shaped_node.2 ⟨.free rfl, inside⟩
  exact List.forall_mem_cons.2 ⟨opened, List.forall_mem_cons.2 ⟨HoldsOfTokens.token _ _,
    List.forall_mem_cons.2 ⟨bodyShaped, shaped⟩⟩⟩

theorem yields_empty {kind : Kind} (free : kind.isFree = true) (isExpression : kind.isExpression = true)
    {start : Tree} (opened : start.Shaped) (gap tag : List Char) :
    Yields (Each fun t => t.Shaped ∧ t.IsExpression) (do
      let last ← closing gap tag
      pure [.node kind (start :: last)] : Rule) := by
  refine .bind (P := Each Shaped) inferInstance fun last shaped => .pure (each_singleton ?_)
  have all : Each Shaped (start :: last) := List.forall_mem_cons.2 ⟨opened, shaped⟩
  exact ⟨shaped_node.2 ⟨.free free, all⟩, _, _, rfl, isExpression⟩

theorem yields_document : Yields (Each fun t => t.Shaped ∧ t.IsExpression) (document inner) := by
  refine .bind yields_opening fun (start, tag, raw) opened => .peek fun s => ?_
  dsimp only
  cases raw <;> split
  · infer_instance
  · split
    · exact yields_empty rfl rfl opened _ _
    · exact .peek fun _ => yields_filled rfl rfl opened _ _
  · infer_instance
  · split
    · exact yields_empty rfl rfl opened _ _
    · exact .peek fun _ => yields_filled rfl rfl opened _ _

end Quoted

end BlueprintSchema.Script
