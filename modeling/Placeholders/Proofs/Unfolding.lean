import Mathlib.Data.Set.Finite.Basic
import Mathlib.Logic.Relation
import Mathlib.Order.WellFounded
import Placeholders.Proofs.Templates

/-! What templates mean when references have templates as their bodies: the text that is left when
every reference with a body is unfolded, all the way down. -/

namespace Placeholders
open Template Relation

abbrev Node := Namespace × Text

/-- The templates behind references; a reference without one stays as it is. -/
abbrev Bodies := Node → Option Template

def Refers (bodies : Bodies) (first second : Node) : Prop :=
  ∃ body, bodies first = some body ∧ ∃ r ∈ references body, r.node = second

/-- A node that unfolding a template comes to. -/
def Uses (bodies : Bodies) (template : Template) (node : Node) : Prop :=
  ∃ r ∈ references template, ReflTransGen (Refers bodies) r.node node

/-- The unfolding of a template with its depth and the text that it leaves. Text, escapes and
references without a body have depth zero, other references are one deeper than their bodies, and a
template is as deep as its deepest piece. -/
inductive Unfolds (bodies : Bodies) : Template → Nat → Text → Prop where
  | nil : Unfolds bodies [] 0 []
  | verbatim {text : Text} {h : '$' ∉ text} {rest : Template} {depth : Nat} {out : Text} :
      Unfolds bodies rest depth out →
      Unfolds bodies (.verbatim text h :: rest) depth (text ++ out)
  | dollar {rest : Template} {depth : Nat} {out : Text} :
      Unfolds bodies rest depth out → Unfolds bodies (.dollar :: rest) depth ('$' :: out)
  | bodiless {r : Reference} {rest : Template} {depth : Nat} {out : Text} :
      bodies r.node = none → Unfolds bodies rest depth out →
      Unfolds bodies (.reference r :: rest) depth (r.literal ++ out)
  | reference {r : Reference} {body rest : Template} {inside depth : Nat} {inner out : Text} :
      bodies r.node = some body → Unfolds bodies body inside inner →
      Unfolds bodies rest depth out →
      Unfolds bodies (.reference r :: rest) (max (inside + 1) depth) (inner ++ out)

def Template.hasBody (bodies : Bodies) (template : Template) : Bool :=
  (references template).any fun r => (bodies r.node).isSome

def Piece.unfold (bodies : Bodies) : Piece → Template
  | .reference r => (bodies r.node).getD [.reference r]
  | piece => [piece]

def Template.unfold (bodies : Bodies) (template : Template) : Template :=
  template.flatMap (Piece.unfold bodies)

variable {bodies : Bodies}

namespace Unfolds

/-- Unfolding is deterministic. -/
theorem unique {template : Template} {d e : Nat} {s t : Text} (hs : Unfolds bodies template d s)
    (ht : Unfolds bodies template e t) : d = e ∧ s = t := by
  induction hs generalizing e t with
  | nil =>
    cases ht
    exact ⟨rfl, rfl⟩
  | verbatim _ ih =>
    cases ht with | verbatim ht => exact ⟨(ih ht).1, by rw [(ih ht).2]⟩
  | dollar _ ih =>
    cases ht with | dollar ht => exact ⟨(ih ht).1, by rw [(ih ht).2]⟩
  | bodiless hn _ ih =>
    cases ht with
    | bodiless _ ht => exact ⟨(ih ht).1, by rw [(ih ht).2]⟩
    | reference hb _ _ =>
      rw [hn] at hb
      cases hb
  | reference hb _ _ ihbody ih =>
    cases ht with
    | bodiless hn _ =>
      rw [hn] at hb
      cases hb
    | reference hc hbody ht =>
      rw [hb] at hc
      cases hc
      obtain ⟨rfl, rfl⟩ := ihbody hbody
      obtain ⟨rfl, rfl⟩ := ih ht
      exact ⟨rfl, rfl⟩

theorem append {first second : Template} {d e : Nat} {s t : Text} (hs : Unfolds bodies first d s)
    (ht : Unfolds bodies second e t) : Unfolds bodies (first ++ second) (max d e) (s ++ t) := by
  induction hs with
  | nil => simpa using ht
  | verbatim _ ih =>
    rw [List.append_assoc]
    exact .verbatim ih
  | dollar _ ih => exact .dollar ih
  | bodiless hn _ ih =>
    rw [List.append_assoc]
    exact .bodiless hn ih
  | reference hb hbody _ _ ih =>
    rw [List.append_assoc, max_assoc]
    exact .reference hb hbody ih

theorem of_append {first second : Template} {depth : Nat} {out : Text}
    (h : Unfolds bodies (first ++ second) depth out) :
    ∃ d e s t, Unfolds bodies first d s ∧ Unfolds bodies second e t ∧ depth = max d e ∧
      out = s ++ t := by
  induction first generalizing depth out with
  | nil => exact ⟨0, depth, [], out, .nil, h, by simp, rfl⟩
  | cons piece first ih =>
    cases h with
    | verbatim h =>
      obtain ⟨d, e, s, t, hs, ht, rfl, rfl⟩ := ih h
      exact ⟨d, e, _, t, .verbatim hs, ht, rfl, (List.append_assoc ..).symm⟩
    | dollar h =>
      obtain ⟨d, e, s, t, hs, ht, rfl, rfl⟩ := ih h
      exact ⟨d, e, _, t, .dollar hs, ht, rfl, rfl⟩
    | bodiless hn h =>
      obtain ⟨d, e, s, t, hs, ht, rfl, rfl⟩ := ih h
      exact ⟨d, e, _, t, .bodiless hn hs, ht, rfl, (List.append_assoc ..).symm⟩
    | reference hb hbody h =>
      obtain ⟨d, e, s, t, hs, ht, rfl, rfl⟩ := ih h
      exact ⟨_, e, _, t, .reference hb hbody hs, ht, (max_assoc ..).symm,
        (List.append_assoc ..).symm⟩

/-- Unfolding by one level takes one level off the depth, and leaves the same text in the end. -/
theorem unfold {template : Template} {depth : Nat} {out : Text}
    (h : Unfolds bodies template depth out) :
    Unfolds bodies (template.unfold bodies) (depth - 1) out := by
  induction h with
  | nil => exact .nil
  | verbatim _ ih => exact .verbatim ih
  | dollar _ ih => exact .dollar ih
  | bodiless hn _ ih =>
    rw [Template.unfold, List.flatMap_cons, Piece.unfold, hn]
    exact .bodiless hn ih
  | @reference r body rest inside depth inner out hb hbody _ _ ih =>
    rw [Template.unfold, List.flatMap_cons, Piece.unfold, hb,
      show max (inside + 1) depth - 1 = max inside (depth - 1) by omega]
    exact hbody.append ih

theorem iterate {template : Template} {depth : Nat} {out : Text}
    (h : Unfolds bodies template depth out) (n : Nat) :
    Unfolds bodies ((Template.unfold bodies)^[n] template) (depth - n) out := by
  induction n with
  | zero => exact h
  | succ n ih =>
    rw [Function.iterate_succ_apply', Nat.sub_succ]
    exact ih.unfold

/-- What unfolds after one level unfolds, one level deeper at most. -/
theorem of_unfold {template : Template} {depth : Nat} {out : Text}
    (h : Unfolds bodies (template.unfold bodies) depth out) :
    ∃ d ≤ depth + 1, Unfolds bodies template d out := by
  induction template generalizing depth out with
  | nil => exact ⟨depth, by omega, h⟩
  | cons piece template ih =>
    rw [Template.unfold, List.flatMap_cons] at h
    obtain ⟨d, e, s, t, hs, ht, rfl, rfl⟩ := h.of_append
    obtain ⟨f, hf, ht⟩ := ih ht
    cases piece with
    | verbatim text hd =>
      cases hs with | verbatim hs =>
        cases hs
        exact ⟨f, by omega, by simpa using ht.verbatim⟩
    | dollar =>
      cases hs with | dollar hs =>
        cases hs
        exact ⟨f, by omega, ht.dollar⟩
    | reference r =>
      rw [Piece.unfold] at hs
      cases hb : bodies r.node with
      | none =>
        rw [hb] at hs
        cases hs with
        | bodiless _ hs =>
          cases hs
          exact ⟨f, by omega, by simpa using ht.bodiless hb⟩
        | reference hc _ _ =>
          rw [hb] at hc
          cases hc
      | some body =>
        rw [hb] at hs
        exact ⟨max (d + 1) f, by omega, .reference hb hs ht⟩

/-- What unfolds after some levels unfolds, and is at most as many levels deeper. -/
theorem of_iterate {template : Template} {n depth : Nat} {out : Text}
    (h : Unfolds bodies ((Template.unfold bodies)^[n] template) depth out) :
    ∃ d ≤ depth + n, Unfolds bodies template d out := by
  induction n generalizing depth with
  | zero => exact ⟨depth, by omega, h⟩
  | succ n ih =>
    rw [Function.iterate_succ_apply'] at h
    obtain ⟨d, hd, h⟩ := h.of_unfold
    obtain ⟨e, he, h⟩ := ih h
    exact ⟨e, by omega, h⟩

theorem of_hasBody_eq_false {template : Template} (h : template.hasBody bodies = false) :
    Unfolds bodies template 0 (shown template) := by
  induction template with
  | nil => exact .nil
  | cons piece template ih =>
    cases piece with
    | verbatim text hd => exact (ih h).verbatim
    | dollar => exact (ih h).dollar
    | reference r =>
      rw [Template.hasBody, references_reference_cons, List.any_cons, Bool.or_eq_false_iff] at h
      exact (ih h.2).bodiless (by simpa using h.1)

/-- The depth is positive exactly if there is a body to unfold. -/
theorem hasBody_eq {template : Template} {depth : Nat} {out : Text}
    (h : Unfolds bodies template depth out) : template.hasBody bodies = decide (0 < depth) := by
  induction h with
  | nil => rfl
  | verbatim _ ih => exact ih
  | dollar _ ih => exact ih
  | bodiless hn _ ih =>
    rw [Template.hasBody, references_reference_cons, List.any_cons, hn]
    exact ih
  | reference hb _ _ _ _ =>
    rw [Template.hasBody, references_reference_cons, List.any_cons, hb]
    simp

/-- At depth zero nothing but the escapes is left to turn. -/
theorem shown_eq {template : Template} {out : Text} (h : Unfolds bodies template 0 out) :
    shown template = out :=
  ((of_hasBody_eq_false (by rw [h.hasBody_eq]; rfl)).unique h).2

end Unfolds

theorem Uses.of_mem {template : Template} {r : Reference} (h : r ∈ references template) :
    Uses bodies template r.node :=
  ⟨r, h, .refl⟩

theorem Uses.trans {template : Template} {node next : Node} (h : Uses bodies template node)
    (hn : Refers bodies node next) : Uses bodies template next := by
  obtain ⟨r, hr, hp⟩ := h
  exact ⟨r, hr, hp.tail hn⟩

/-- What holds of the references of a template and of all that it passes on to holds of all used
nodes. -/
theorem Uses.of_closed {template : Template} {node : Node} (h : Uses bodies template node)
    {p : Node → Prop} (hs : ∀ r ∈ references template, p r.node)
    (hc : ∀ first second, p first → Refers bodies first second → p second) : p node := by
  obtain ⟨r, hr, hp⟩ := h
  induction hp with
  | refl => exact hs r hr
  | tail _ hn ih => exact hc _ _ ih hn

theorem mem_references_unfold {template : Template} {r : Reference}
    (h : r ∈ references (template.unfold bodies)) :
    r ∈ references template ∨ ∃ s ∈ references template, Refers bodies s.node r.node := by
  induction template with
  | nil => exact .inl h
  | cons piece template ih =>
    rw [Template.unfold, List.flatMap_cons, references_append, List.mem_append] at h
    rcases h with h | h
    · cases piece with
      | verbatim text hd => cases h
      | dollar => cases h
      | reference s =>
        rw [Piece.unfold] at h
        cases hb : bodies s.node with
        | none =>
          rw [hb] at h
          rw [List.mem_singleton.mp h]
          exact .inl List.mem_cons_self
        | some body =>
          rw [hb] at h
          exact .inr ⟨s, List.mem_cons_self, body, hb, r, h, rfl⟩
    · have hsub {q : Reference} (hq : q ∈ references template) :
          q ∈ references (piece :: template) := by
        cases piece with
        | reference s => exact List.mem_cons_of_mem s hq
        | _ => exact hq
      rcases ih h with hr | ⟨q, hq, hn⟩
      · exact .inl (hsub hr)
      · exact .inr ⟨q, hsub hq, hn⟩

/-- A body that is its own reference refers to itself. -/
theorem Refers.of_literal {r : Reference} {body : Template} (hb : bodies r.node = some body)
    (hl : render body = r.literal) : Refers bodies r.node r.node := by
  obtain ⟨s, hs, htoken⟩ :=
    exists_token_eq ((render_reference r).trans hl.symm) List.mem_cons_self
  exact ⟨body, hb, s, hs, Reference.node_eq_of_token_eq htoken⟩

/-- It refers to nothing else, so nothing else can be reached from it. -/
theorem eq_of_transGen_of_literal {r : Reference} {body : Template}
    (hb : bodies r.node = some body) (hl : render body = r.literal) {node : Node}
    (h : TransGen (Refers bodies) r.node node) : node = r.node := by
  have hself : ∀ next, Refers bodies r.node next → next = r.node := by
    rintro next ⟨other, ho, s, hs, rfl⟩
    obtain rfl : body = other := Option.some.inj (hb.symm.trans ho)
    obtain ⟨q, hq, htoken⟩ := exists_token_eq (hl.trans (render_reference r).symm) hs
    rw [← List.mem_singleton.mp hq]
    exact (Reference.node_eq_of_token_eq htoken).symm
  induction h with
  | single hn => exact hself _ hn
  | tail _ hn ih =>
    rw [ih] at hn
    exact hself _ hn

/-- Unfolding a reference brings up what its body refers to. -/
theorem exists_mem_references_unfold {template : Template} {r : Reference}
    (hr : r ∈ references template) {node : Node} (hn : Refers bodies r.node node) :
    ∃ s ∈ references (template.unfold bodies), s.node = node := by
  obtain ⟨body, hb, s, hs, he⟩ := hn
  obtain ⟨piece, hp, hpiece⟩ := List.mem_filterMap.mp hr
  obtain ⟨part, hpart, hsome⟩ := List.mem_filterMap.mp hs
  have hunfold : part ∈ piece.unfold bodies := by
    cases piece with
    | reference q =>
      obtain rfl : q = r := Option.some.inj hpiece
      rwa [Piece.unfold, hb]
    | _ => cases hpiece
  exact ⟨s, List.mem_filterMap.mpr ⟨part, List.mem_flatMap.mpr ⟨piece, hp, hunfold⟩, hsome⟩, he⟩

theorem Uses.of_unfold {template : Template} {node : Node}
    (h : Uses bodies (template.unfold bodies) node) : Uses bodies template node := by
  obtain ⟨r, hr, hp⟩ := h
  rcases mem_references_unfold hr with hr | ⟨s, hs, hn⟩
  · exact ⟨r, hr, hp⟩
  · exact ⟨s, hs, .head hn hp⟩

theorem Uses.of_iterate {template : Template} {node : Node} {n : Nat}
    (h : Uses bodies ((Template.unfold bodies)^[n] template) node) : Uses bodies template node := by
  induction n with
  | zero => exact h
  | succ n ih =>
    rw [Function.iterate_succ_apply'] at h
    exact ih h.of_unfold

private theorem exists_unfolds_of_forall {template : Template}
    (h : ∀ r ∈ references template, ∀ body, bodies r.node = some body →
      ∃ depth out, Unfolds bodies body depth out) :
    ∃ depth out, Unfolds bodies template depth out := by
  induction template with
  | nil => exact ⟨0, [], .nil⟩
  | cons piece template ih =>
    cases piece with
    | verbatim text hd =>
      obtain ⟨depth, out, hu⟩ := ih h
      exact ⟨depth, _, hu.verbatim⟩
    | dollar =>
      obtain ⟨depth, out, hu⟩ := ih h
      exact ⟨depth, _, hu.dollar⟩
    | reference r =>
      obtain ⟨hr, hrest⟩ := List.forall_mem_cons.mp h
      obtain ⟨depth, out, hu⟩ := ih hrest
      cases hb : bodies r.node with
      | none => exact ⟨depth, _, hu.bodiless hb⟩
      | some body =>
        obtain ⟨inside, inner, hbody⟩ := hr body hb
        exact ⟨_, _, .reference hb hbody hu⟩

/-- On finitely many nodes no way down goes on for ever if none comes back to where it was. -/
private theorem wellFounded_of_finite {template : Template}
    (hfin : {node | Uses bodies template node}.Finite)
    (hac : ∀ node, Uses bodies template node → ¬ TransGen (Refers bodies) node node) :
    WellFounded fun below above : {node // Uses bodies template node} =>
      TransGen (Refers bodies) above.1 below.1 := by
  have hfinite : Finite {node // Uses bodies template node} := hfin.to_subtype
  have htrans : IsTrans {node // Uses bodies template node} fun below above =>
      TransGen (Refers bodies) above.1 below.1 := ⟨fun _ _ _ hab hbc => hbc.trans hab⟩
  have hirrefl : Std.Irrefl fun below above : {node // Uses bodies template node} =>
      TransGen (Refers bodies) above.1 below.1 := ⟨fun node h => hac node.1 node.2 h⟩
  exact Finite.wellFounded_of_trans_of_irrefl _

/-- If unfolding comes to finitely many nodes, and to none of them again on its way down, it comes
to an end. -/
theorem exists_unfolds_of_finite {template : Template}
    (hfin : {node | Uses bodies template node}.Finite)
    (hac : ∀ node, Uses bodies template node → ¬ TransGen (Refers bodies) node node) :
    ∃ depth out, Unfolds bodies template depth out := by
  have hbody (node : {node // Uses bodies template node}) :
      ∀ body, bodies node.1 = some body → ∃ depth out, Unfolds bodies body depth out := by
    induction node using (wellFounded_of_finite hfin hac).induction with
    | h node ih =>
      intro body hb
      apply exists_unfolds_of_forall
      intro r hr
      have hn : Refers bodies node.1 r.node := ⟨body, hb, r, hr, rfl⟩
      exact ih ⟨r.node, node.2.trans hn⟩ (.single hn)
  exact exists_unfolds_of_forall fun r hr => hbody ⟨r.node, .of_mem hr⟩

private theorem exists_unfolds_of_mem {template : Template} {depth : Nat} {out : Text}
    (h : Unfolds bodies template depth out) {r : Reference} (hr : r ∈ references template)
    {body : Template} (hb : bodies r.node = some body) :
    ∃ inside inner, Unfolds bodies body inside inner ∧ inside < depth := by
  induction h with
  | nil => cases hr
  | verbatim _ ih => exact ih hr
  | dollar _ ih => exact ih hr
  | bodiless hn _ ih =>
    rcases List.mem_cons.mp hr with rfl | hr
    · rw [hn] at hb
      cases hb
    · exact ih hr
  | reference hc hbody _ _ ih =>
    rcases List.mem_cons.mp hr with rfl | hr
    · rw [hc] at hb
      cases hb
      exact ⟨_, _, hbody, by omega⟩
    · obtain ⟨inside, inner, hu, hlt⟩ := ih hr
      exact ⟨inside, inner, hu, by omega⟩

/-- Every step down takes some of the depth. -/
private theorem exists_unfolds_of_transGen {first second : Node}
    (h : TransGen (Refers bodies) first second) {body target : Template} {depth : Nat} {out : Text}
    (hf : bodies first = some body) (hu : Unfolds bodies body depth out)
    (hs : bodies second = some target) :
    ∃ inside inner, Unfolds bodies target inside inner ∧ inside < depth := by
  induction h generalizing target with
  | single hn =>
    obtain ⟨own, ho, r, hr, rfl⟩ := hn
    rw [hf] at ho
    cases ho
    exact exists_unfolds_of_mem hu hr hs
  | tail _ hn ih =>
    obtain ⟨own, ho, r, hr, rfl⟩ := hn
    obtain ⟨between, inner, hbetween, hlt⟩ := ih ho
    obtain ⟨inside, inner, hinside, hlt'⟩ := exists_unfolds_of_mem hbetween hr hs
    exact ⟨inside, inner, hinside, by omega⟩

/-- What unfolds to the end comes to no node a second time on its way down. -/
theorem Unfolds.not_transGen {template : Template} {depth : Nat} {out : Text}
    (h : Unfolds bodies template depth out) {node : Node} (hu : Uses bodies template node) :
    ¬ TransGen (Refers bodies) node node := by
  intro hcycle
  obtain ⟨_, ⟨body, hb, _⟩, _⟩ := TransGen.head'_iff.mp hcycle
  obtain ⟨inside, inner, hbody⟩ : ∃ inside inner, Unfolds bodies body inside inner := by
    obtain ⟨r, hr, hp⟩ := hu
    rcases reflTransGen_iff_eq_or_transGen.mp hp with rfl | hp
    · obtain ⟨inside, inner, hbody, _⟩ := exists_unfolds_of_mem h hr hb
      exact ⟨inside, inner, hbody⟩
    · obtain ⟨_, ⟨own, ho, _⟩, _⟩ := TransGen.head'_iff.mp hp
      obtain ⟨_, _, hown, _⟩ := exists_unfolds_of_mem h hr ho
      obtain ⟨inside, inner, hbody, _⟩ := exists_unfolds_of_transGen hp ho hown hb
      exact ⟨inside, inner, hbody⟩
  obtain ⟨again, _, hagain, hlt⟩ := exists_unfolds_of_transGen hcycle hb hbody hb
  exact absurd (hagain.unique hbody).1 (Nat.ne_of_lt hlt)

end Placeholders
