import BlueprintSchema.Script.Rule

/-! What readers give, rule by rule. If all that the parts of a rule give has a property, then so has all
that the rule gives; the instances here carry this through every way to put rules together. Main
statement: `Yields.bind`. -/

namespace BlueprintSchema.Script

class Yields {α : Type} (P : α → Prop) (p : Reader α) : Prop where
  yields : ∀ {s : List Char} {a : α} {r : List Char}, p s = some (a, r) → P a

def Each (P : Tree → Prop) (ts : List Tree) : Prop := ∀ t ∈ ts, P t

theorem Each.append {P : Tree → Prop} {ts us : List Tree} (h : Each P ts) (h' : Each P us) :
    Each P (ts ++ us) :=
  fun t member => (List.mem_append.1 member).elim (h t) (h' t)

namespace Yields

section Readers

variable {α β : Type} {P : α → Prop} {Q : β → Prop} {p q : Reader α} {f : α → Reader β}

theorem pure {a : α} (h : P a) : Yields P (pure a : Reader α) where
  yields e := by
    cases e
    exact h

instance failure : Yields P (failure : Reader α) where
  yields e := nomatch e

instance trivial (p : Reader α) : Yields (fun _ => True) p where
  yields _ := True.intro

theorem mono {R : α → Prop} (h : Yields P p) (weaker : ∀ a, P a → R a) : Yields R p where
  yields e := weaker _ (h.yields e)

theorem bind (h : Yields P p) (next : ∀ a, P a → Yields Q (f a)) : Yields Q (p >>= f) where
  yields {s b r} e := by
    change (p s).bind (fun ar => f ar.1 ar.2) = some (b, r) at e
    obtain ⟨⟨a, t⟩, first, rest⟩ := Option.bind_eq_some_iff.1 e
    exact (next a (h.yields first)).yields rest

theorem peek (next : ∀ a, Yields Q (f a)) : Yields Q (p >>= f) :=
  bind (P := fun _ => True) inferInstance fun a _ => next a

instance orElse [Yields P p] [Yields P q] : Yields P (p <|> q) where
  yields {s a r} e := by
    change (p s).orElse (fun _ => q s) = some (a, r) at e
    cases first : p s with
    | none =>
      rw [first] at e
      exact yields (p := q) e
    | some ar =>
      rw [first] at e
      exact yields (p := p) (first.trans e)

instance ite {c : Prop} [Decidable c] [Yields P p] [Yields P q] : Yields P (if c then p else q) := by
  split <;> infer_instance

end Readers

section Rules

variable {P : Tree → Prop} {p q : Rule}

instance append [Yields (Each P) p] [Yields (Each P) q] : Yields (Each P) (p ++ q) :=
  bind (P := Each P) inferInstance fun _ first =>
    bind (P := Each P) inferInstance fun _ rest => .pure (first.append rest)

instance nothing : Yields (Each P) Rule.nothing :=
  .pure fun _ member => nomatch member

instance opt [Yields (Each P) p] : Yields (Each P) (Rule.opt p) := by
  unfold Rule.opt
  infer_instance

instance upTo [Yields (Each P) p] (fuel : Nat) : Yields (Each P) (Rule.upTo p fuel) := by
  induction fuel with
  | zero => exact nothing
  | succ fuel ih =>
    refine peek fun s => ?_
    split
    · exact nothing
    · next ts r first =>
      split
      · have shaped : Each P ts := yields first
        exact peek fun _ => bind ih fun us rest => .pure (shaped.append rest)
      · exact nothing

instance many [Yields (Each P) p] : Yields (Each P) (Rule.many p) :=
  peek fun _ => inferInstance

instance some1 [Yields (Each P) p] : Yields (Each P) (Rule.some1 p) := by
  unfold Rule.some1
  infer_instance

theorem asNode {kind : Kind} {R : List Tree → Prop} [Yields R p]
    (h : ∀ ts, R ts → P (.node kind ts)) : Yields (Each P) (Rule.asNode kind p) :=
  bind (P := R) inferInstance fun ts shaped =>
    .pure fun _ member => List.mem_singleton.1 member ▸ h ts shaped

end Rules

end Yields

class HoldsOfTokens (P : Tree → Prop) : Prop where
  token : ∀ before text, P (.token before text)

namespace Yields

section Tokens

variable {P : Tree → Prop} [HoldsOfTokens P] {p : Rule}

theorem each_token (before : List Trivia) (text : List Char) : Each P [.token before text] :=
  fun _ member => List.mem_singleton.1 member ▸ HoldsOfTokens.token before text

instance lexeme (take : List Char → Option (List Char × List Char)) :
    Yields (Each P) (Rule.lexeme take) :=
  peek fun _ => peek fun _ => peek fun _ => .pure (each_token _ _)

instance sign (t : String) : Yields (Each P) (Rule.sign t) := by
  unfold Rule.sign
  infer_instance

instance name : Yields (Each P) Rule.name := by
  unfold Rule.name
  infer_instance

instance word (w : String) : Yields (Each P) (Rule.word w) :=
  peek fun _ => inferInstance

instance wordOf (ws : List String) : Yields (Each P) (Rule.wordOf ws) :=
  peek fun _ => inferInstance

instance semicolon : Yields (Each P) Rule.semicolon :=
  peek fun _ => inferInstance

instance ending : Yields (Each P) Rule.ending := by
  unfold Rule.ending
  infer_instance

instance braced [Yields (Each P) p] : Yields (Each P) (Rule.braced p) := by
  unfold Rule.braced
  infer_instance

instance list1 [Yields (Each P) p] : Yields (Each P) (Rule.list1 p) := by
  unfold Rule.list1
  infer_instance

instance list [Yields (Each P) p] : Yields (Each P) (Rule.list p) := by
  unfold Rule.list
  infer_instance

end Tokens

end Yields

end BlueprintSchema.Script
