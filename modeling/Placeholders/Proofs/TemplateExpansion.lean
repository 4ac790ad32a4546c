import Placeholders.Proofs.TemplateValues

/-! Expansion of templates whose values are templates again, none of them part of itself. Each pass
unfolds by one level, so an expansion without end of passes arrives at what the template means, and
the number of its passes is the depth and one more. -/

namespace Placeholders
open Template Relation

namespace Services
variable {σ : Type} (services : Services σ) (context : Context)
  (answer : Text → Text → Except CommandError Text)

/-- A template with the bodies of everything that it uses, in a world where commands always answer
the same and no lookup fails. -/
structure Acyclic (bodies : Bodies) (template : Template) : Prop where
  steady : ∀ name folder state, (services.execute name folder state).1 = answer name folder
  succeeds : ∀ node, Uses bodies template node → services.faultAt? context node.1 node.2 = none
  valued : ∀ node, Uses bodies template node →
    services.valueOf? context answer node = (bodies node).map render
  acyclic : ∀ node, Uses bodies template node → ¬ TransGen (Refers bodies) node node

variable {services context answer} {bodies : Bodies} {template : Template}

namespace Acyclic

theorem unfold (h : services.Acyclic context answer bodies template) :
    services.Acyclic context answer bodies (template.unfold bodies) where
  steady := h.steady
  succeeds := fun node hu => h.succeeds node hu.of_unfold
  valued := fun node hu => h.valued node hu.of_unfold
  acyclic := fun node hu => h.acyclic node hu.of_unfold

theorem iterate (h : services.Acyclic context answer bodies template) (n : Nat) :
    services.Acyclic context answer bodies ((Template.unfold bodies)^[n] template) := by
  induction n with
  | zero => exact h
  | succ n ih =>
    rw [Function.iterate_succ_apply']
    exact ih.unfold

theorem bodied (h : services.Acyclic context answer bodies template) :
    services.Bodied context answer bodies template :=
  ⟨h.steady, h.valued⟩

private theorem fault?_eq_none (h : services.Acyclic context answer bodies template) :
    services.fault? context (render template) = none :=
  fault?_render_eq_none fun r hr => h.succeeds r.node (.of_mem hr)

private theorem flagged?_eq_none (h : services.Acyclic context answer bodies template) :
    services.flagged? context (render template) = none := by
  by_contra hflag
  obtain ⟨token, ht, hback⟩ := (flagged_ne_none_iff h.fault?_eq_none).mp hflag
  obtain ⟨r, hr, hns, rfl⟩ := mem_scan_render.mp ht
  exact h.acyclic r.node (.of_mem hr) (.single ((h.bodied.leadsBack_iff hr hns).mp hback))

/-- The body of a reference is never the reference itself. -/
private theorem exists_body_iff (h : services.Acyclic context answer bodies template) :
    (∃ r ∈ references template, ∃ body, bodies r.node = some body ∧ render body ≠ r.literal) ↔
      template.hasBody bodies = true := by
  rw [hasBody, List.any_eq_true]
  refine exists_congr fun r => and_congr_right fun hr => ?_
  rw [Option.isSome_iff_exists]
  exact exists_congr fun body => and_iff_left_of_imp fun hb he =>
    h.acyclic r.node (.of_mem hr) (.single (.of_literal hb he))

/-- A pass over such a template unfolds it by one level. -/
theorem exists_pass (h : services.Acyclic context answer bodies template) (state : σ) :
    ∃ pass after, (Engine.standard services).pass context (render template) state =
        (.ok pass, after) ∧
      pass.result = render (template.unfold bodies) ∧ pass.changed = template.hasBody bodies ∧
        pass.circular = none := by
  have hf := h.fault?_eq_none
  have hu := h.flagged?_eq_none
  refine ⟨_, _, services.pass_of_fault?_eq_none context _ state hf, ?_, ?_, ?_⟩
  · exact h.bodied.result_finished hf hu state
  · rw [Bool.eq_iff_iff, h.bodied.changed_finished_iff hf hu, h.exists_body_iff]
  · rw [circular_finished, hu]

/-- As long as there are bodies to unfold, pass number `n` starts on the text unfolded by `n`
levels. -/
theorem exists_reaches (h : services.Acyclic context answer bodies template) (state : σ)
    (hrec : context.recursive = true) {n : Nat} (hn : n < maxPasses)
    (hbody : ∀ i < n, hasBody bodies ((Template.unfold bodies)^[i] template) = true) :
    ∃ before, (Engine.standard services).Reaches context (render template) state n
      (render ((Template.unfold bodies)^[n] template)) before := by
  induction n with
  | zero => exact ⟨state, .start⟩
  | succ n ih =>
    obtain ⟨before, hr⟩ := ih (by omega) fun i hi => hbody i (by omega)
    obtain ⟨pass, after, hp, hresult, hch, hcirc⟩ := (h.iterate n).exists_pass before
    rw [hbody n (by omega)] at hch
    refine ⟨after, ?_⟩
    rw [Function.iterate_succ_apply', ← hresult]
    exact hr.next hp ⟨hcirc, hn, hrec, hch⟩

private theorem outcome_of_reaches (h : services.Acyclic context answer bodies template) {n : Nat}
    {state before : σ}
    (hr : (Engine.standard services).Reaches context (render template) state n
      (render ((Template.unfold bodies)^[n] template)) before)
    (hlast : ¬ (n + 1 < maxPasses ∧ context.recursive = true ∧
      hasBody bodies ((Template.unfold bodies)^[n] template) = true)) :
    ((Engine.standard services).expand context (render template) state).1.outcome =
      { result := shown ((Template.unfold bodies)^[n + 1] template)
        changed := decide (0 < n) || hasBody bodies ((Template.unfold bodies)^[n] template)
        status := if n + 1 = maxPasses then .maxRecursionReached else .complete
        passes := n + 1 } := by
  obtain ⟨pass, after, hp, hresult, hch, hcirc⟩ := (h.iterate n).exists_pass before
  have hstop : ¬ Engine.Continues context n pass := fun hc => hlast (hch ▸ hc.2)
  have hshown : Substitution.unescape pass.result =
      shown ((Template.unfold bodies)^[n + 1] template) := by
    rw [hresult, Substitution.unescape_render, Function.iterate_succ_apply']
  rw [Engine.outcome_expand_of_not_continues hr hp hstop, Engine.lastOutcome, Engine.endingOf,
    hcirc, hch, hshown]
  by_cases hm : n + 1 = maxPasses
  · rw [if_pos hm, if_pos hm]
    rfl
  · rw [if_neg hm, if_neg hm]
    rfl

private theorem outcome_of_shallow (h : services.Acyclic context answer bodies template)
    (state : σ) (hrec : context.recursive = true) {depth : Nat} {out : Text}
    (hu : Unfolds bodies template depth out) (hd : depth + 1 < maxPasses) :
    ((Engine.standard services).expand context (render template) state).1.outcome =
      { result := out, changed := decide (0 < depth), status := .complete,
        passes := depth + 1 } := by
  obtain ⟨before, hr⟩ := h.exists_reaches state hrec (Nat.lt_of_succ_lt hd) fun i hi => by
    rw [(hu.iterate i).hasBody_eq]
    exact decide_eq_true (by omega)
  have hdone : hasBody bodies ((Template.unfold bodies)^[depth] template) = false := by
    rw [(hu.iterate depth).hasBody_eq]
    simp
  have hend := hu.iterate (depth + 1)
  rw [show depth - (depth + 1) = 0 by omega] at hend
  rw [h.outcome_of_reaches hr (by simp [hdone]), hdone, hend.shown_eq, Bool.or_false,
    if_neg (Nat.ne_of_lt hd)]

private theorem outcome_of_deep (h : services.Acyclic context answer bodies template)
    (state : σ) (hrec : context.recursive = true)
    (hdeep : ∀ depth out, Unfolds bodies template depth out → maxPasses ≤ depth + 1) :
    ((Engine.standard services).expand context (render template) state).1.outcome =
      { result := shown ((Template.unfold bodies)^[maxPasses] template), changed := true,
        status := .maxRecursionReached, passes := maxPasses } := by
  have hbody : ∀ i < maxPasses - 1,
      hasBody bodies ((Template.unfold bodies)^[i] template) = true := by
    intro i hi
    by_contra hno
    -- a text without bodies after `i` levels is the end of an unfolding of depth `i` at most
    obtain ⟨depth, hle, hu⟩ := (Unfolds.of_hasBody_eq_false (by simpa using hno)).of_iterate
    have hd := hdeep depth _ hu
    omega
  obtain ⟨before, hr⟩ := h.exists_reaches state hrec (n := maxPasses - 1) (by decide) hbody
  have hcap : maxPasses - 1 + 1 = maxPasses := rfl
  have hlast := h.outcome_of_reaches hr fun hlt => absurd hlt.1 (Nat.lt_irrefl maxPasses)
  rw [hlast, hcap, if_pos rfl, decide_eq_true (show 0 < maxPasses - 1 by decide), Bool.true_or]

end Acyclic

/-- Expansion of an acyclic template. With recursion a template of small depth expands to its
unfolding, in one pass more than its depth. A pass must be left to see that nothing changes, so a
depth one below the largest number of passes already counts as too deep; then the text is unfolded
by that many levels. Without recursion it is unfolded by one. -/
theorem expand_template (state : σ) (h : services.Acyclic context answer bodies template) :
    (context.recursive = false →
      ((Engine.standard services).expand context (render template) state).1.outcome =
        { result := shown (template.unfold bodies), changed := template.hasBody bodies,
          status := .complete, passes := 1 }) ∧
    (context.recursive = true →
      (∀ depth out, Unfolds bodies template depth out → depth + 1 < maxPasses →
        ((Engine.standard services).expand context (render template) state).1.outcome =
          { result := out, changed := decide (0 < depth), status := .complete,
            passes := depth + 1 }) ∧
      ((∀ depth out, Unfolds bodies template depth out → maxPasses ≤ depth + 1) →
        ((Engine.standard services).expand context (render template) state).1.outcome =
          { result := shown ((Template.unfold bodies)^[maxPasses] template), changed := true,
            status := .maxRecursionReached, passes := maxPasses }) ∧
      ∀ depth out, Unfolds bodies template depth out → depth ≤ maxPasses →
        ((Engine.standard services).expand context (render template) state).1.outcome.result =
          out) ∧
    ({node | Uses bodies template node}.Finite →
      ∃ depth out, Unfolds bodies template depth out) := by
  refine ⟨fun hrec => ?_, fun hrec => ⟨fun depth out hu hd => h.outcome_of_shallow state hrec hu hd,
    h.outcome_of_deep state hrec, fun depth out hu hd => ?_⟩,
    fun hfin => exists_unfolds_of_finite hfin h.acyclic⟩
  · have hstart : (Engine.standard services).Reaches context (render template) state 0
        (render ((Template.unfold bodies)^[0] template)) state := .start
    rw [h.outcome_of_reaches hstart fun hc => by simp [hrec] at hc]
    rfl
  · by_cases hlt : depth + 1 < maxPasses
    · rw [h.outcome_of_shallow state hrec hu hlt]
    · have hdeep := h.outcome_of_deep state hrec fun e s hs => by
        rw [(hs.unique hu).1]
        omega
      have hend := hu.iterate maxPasses
      rw [Nat.sub_eq_zero_of_le hd] at hend
      rw [hdeep, hend.shown_eq]

end Services

namespace Nested

def outer : Reference := .plain "a".toList (by decide) (by decide)

def inner : Reference :=
  .line ⟨.variant, "$\x7bvariant:".toList, .line⟩ (by decide) rfl "v".toList (by decide) (by simp)

def context : Context where
  vars := Variables.bare.bind outer.key (render [.reference inner, .dollar]) (by decide) (by decide)
  variants := some (Table.ofList [(inner.key, "x".toList)])

def bodies : Bodies := fun node =>
  if node = outer.node then some [.reference inner, .dollar]
  else if node = inner.node then some [.verbatim "x".toList (by decide)]
  else none

private theorem unfolds : Unfolds bodies [.reference outer] 2 "x$".toList := by
  have h : Unfolds bodies [.reference outer] (max (max (0 + 1) 0 + 1) 0)
      (("x".toList ++ [] ++ ['$']) ++ []) :=
    .reference rfl (.reference rfl (.verbatim .nil) (.dollar .nil)) .nil
  exact h

private theorem node_of_uses {node : Node} (h : Uses bodies [.reference outer] node) :
    node = outer.node ∨ node = inner.node := by
  refine h.of_closed (p := fun node => node = outer.node ∨ node = inner.node) (fun r hr => ?_)
    fun first second hf hn => ?_
  · rw [List.mem_singleton.mp hr]
    exact .inl rfl
  · obtain ⟨body, hb, r, hr, rfl⟩ := hn
    rcases hf with rfl | rfl
    · obtain rfl : [.reference inner, .dollar] = body := Option.some.inj hb
      rw [List.mem_singleton.mp hr]
      exact .inr rfl
    · obtain rfl : [.verbatim "x".toList (by decide)] = body := Option.some.inj hb
      cases hr

private theorem acyclic :
    Services.still.Acyclic context (fun name _ => .error (.unknown name)) bodies
      [.reference outer] where
  steady := fun _ _ _ => rfl
  succeeds := fun node hu => by
    rcases node_of_uses hu with rfl | rfl
    · rfl
    · rfl
  valued := fun node hu => by
    rcases node_of_uses hu with rfl | rfl
    · decide
    · decide
  acyclic := fun _ hu => unfolds.not_transGen hu

/-- A reference to a template with another reference takes two passes, and a third to see that
nothing changes. -/
theorem expand_outer :
    Services.still.Acyclic context (fun name _ => .error (.unknown name)) bodies
        [.reference outer] ∧
      ((Engine.standard Services.still).expand context (render [.reference outer]) ()).1.outcome =
        { result := "x$".toList, changed := true, status := .complete, passes := 3 } :=
  ⟨acyclic, ((Services.expand_template () acyclic).2.1 rfl).1 2 _ unfolds (by decide)⟩

end Nested
end Placeholders
