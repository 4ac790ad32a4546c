import Placeholders.Proofs.TemplateValues

/-! References in circles. A pass looks no further than the values of its tokens, so it flags a
circle only where an environment variable names itself. Every other circle keeps the passes busy:
each unfolding brings up a reference that still has the circle before it, so none of them leaves the
text alone, and the expansion does not end as complete. -/

namespace Placeholders
open Template Relation

section
variable {bodies : Bodies} {template : Template}

/-- Unfolding a template that leads to a circle leaves one that leads to it. -/
private theorem exists_leads_unfold {node : Node} (hc : TransGen (Refers bodies) node node)
    (h : ∃ r ∈ references template, TransGen (Refers bodies) r.node node) :
    ∃ r ∈ references (template.unfold bodies), TransGen (Refers bodies) r.node node := by
  obtain ⟨r, hr, hp⟩ := h
  obtain ⟨next, hn, hrest⟩ := TransGen.head'_iff.mp hp
  obtain ⟨s, hs, rfl⟩ := exists_mem_references_unfold hr hn
  exact ⟨s, hs, hc.trans_right hrest⟩

private theorem exists_leads_iterate {node : Node} (hc : TransGen (Refers bodies) node node)
    (hu : Uses bodies template node) (n : Nat) :
    ∃ r ∈ references ((Template.unfold bodies)^[n] template),
      TransGen (Refers bodies) r.node node := by
  induction n with
  | zero =>
    obtain ⟨r, hr, hp⟩ := hu
    exact ⟨r, hr, hc.trans_right hp⟩
  | succ n ih =>
    rw [Function.iterate_succ_apply']
    exact exists_leads_unfold hc ih

namespace Services
open Engine
variable {σ : Type} {services : Services σ} {context : Context}
  {answer : Text → Text → Except CommandError Text}

namespace Bodied

/-- A pass that neither fails nor flags a token changes a template that leads to a circle. -/
private theorem changed_of_leads (h : services.Bodied context answer bodies template)
    (hf : services.fault? context (render template) = none)
    (hu : services.flagged? context (render template) = none) (state : σ) {r c : Reference}
    (hr : r ∈ references template) (hp : TransGen (Refers bodies) r.node c.node)
    (hself : c.grammar.ns ≠ .environment →
      services.valueOf? context answer c.node ≠ some c.literal) :
    (services.finished context (render template) state).changed = true := by
  obtain ⟨_, ⟨body, hb, _⟩, _⟩ := TransGen.head'_iff.mp hp
  refine (h.changed_finished_iff hf hu state).mpr ⟨r, hr, body, hb, fun hl => ?_⟩
  -- otherwise the circle is this reference alone, which the environment would flag
  have hnode : c.node = r.node := eq_of_transGen_of_literal hb hl hp
  have hns : c.grammar.ns = r.grammar.ns := congrArg Prod.fst hnode
  by_cases he : r.grammar.ns = .environment
  · have hback := (h.leadsBack_iff hr he).mpr (.of_literal hb hl)
    have hscan := mem_scan_render.mpr ⟨r, hr, he, rfl⟩
    exact (flagged_ne_none_iff hf).mpr ⟨r.token, hscan, hback⟩ hu
  · have hce : c.grammar.ns ≠ .environment := fun hc => he (hns.symm.trans hc)
    refine hself hce ?_
    rw [Reference.literal_eq_of_node_eq hnode hce, hnode, h.valued r.node (.of_mem hr), hb,
      Option.map_some, hl]

end Bodied

/-- No circle of references is accepted. Let a template use a reference on a circle of any length
and through any namespaces, other than one outside the environment that is bound to exactly its own
literal. Then its recursive expansion ends at the largest number of passes, or at a token that is
flagged as circular, or at a lookup that fails; it never ends as complete. -/
theorem status_expand_of_cycle (state : σ)
    (h : services.Bodied context answer bodies template) (hrec : context.recursive = true)
    {r : Reference} (hu : Uses bodies template r.node)
    (hc : TransGen (Refers bodies) r.node r.node)
    (hself : r.grammar.ns ≠ .environment →
      services.valueOf? context answer r.node ≠ some r.literal) :
    let status :=
      ((Engine.standard services).expand context (render template) state).1.outcome.status
    status = .maxRecursionReached ∨ status = .circularReference ∨
      (status = .faulted ∧
        ∃ node, Uses bodies template node ∧ services.faultAt? context node.1 node.2 ≠ none) := by
  intro status
  obtain ⟨n, text, before, hr, hlast⟩ :=
    exists_last (Engine.standard services) context (render template) state
  obtain ⟨hbodied, rfl⟩ := h.eq_of_reaches hr
  rcases hp : (Engine.standard services).pass context
      (render ((Template.unfold bodies)^[n] template)) before with ⟨fault | pass, after⟩
  · obtain ⟨s, hs, hfails⟩ := exists_faultAt?_of_pass_eq_error hp
    exact .inr (.inr ⟨status_expand_of_fault hr hp, s.node, (Uses.of_mem hs).of_iterate, hfails⟩)
  · have hstop := hlast pass after hp
    have hstatus : status = (lastOutcome (render template) pass n).status :=
      congrArg Outcome.status (outcome_expand_of_not_continues hr hp hstop)
    obtain ⟨hf, hpass, _⟩ := (services.pass_eq_ok_iff context _ before).mp hp
    by_cases hcirc : pass.circular = none
    · obtain ⟨s, hs, hleads⟩ := exists_leads_iterate hc hu n
      have hflag : services.flagged? context (render ((Template.unfold bodies)^[n] template)) =
          none := by
        rwa [← hpass, circular_finished] at hcirc
      have hchanged := hbodied.changed_of_leads hf hflag before hs hleads hself
      rw [hpass] at hchanged
      have hlt := hr.lt
      have hcap : n + 1 = maxPasses := by
        by_contra hm
        exact hstop ⟨hcirc, by omega, hrec, hchanged⟩
      exact .inl (hstatus.trans (status_lastOutcome_eq_maxRecursionReached_iff.mpr ⟨hcirc, hcap⟩))
    · exact .inr (.inl (hstatus.trans (status_lastOutcome_eq_circularReference_iff.mpr hcirc)))

end Services
end

namespace Mutual

def name : Reference := .plain "name".toList (by decide) (by decide)

def home : Reference :=
  .line ⟨.environment, "$env\x7b".toList, .line⟩ (by decide) rfl "HOME".toList (by decide) (by simp)

/-- A variable that stands for an environment variable, which stands for the variable. -/
def context : Context where
  vars := Variables.bare.bind name.key home.literal (by decide) (by decide)
  environmentOverride := some (Table.ofList [(home.key, some name.literal)])

def bodies : Bodies := fun node =>
  if node = name.node then some [.reference home]
  else if node = home.node then some [.reference name]
  else none

private theorem name_or_home_of_uses {node : Node} (h : Uses bodies [.reference name] node) :
    node = name.node ∨ node = home.node := by
  refine h.of_closed (p := fun node => node = name.node ∨ node = home.node) (fun r hr => ?_)
    fun first second hf hn => ?_
  · rw [List.mem_singleton.mp hr]
    exact .inl rfl
  · obtain ⟨body, hb, r, hr, rfl⟩ := hn
    rcases hf with rfl | rfl
    · obtain rfl : [.reference home] = body := Option.some.inj hb
      rw [List.mem_singleton.mp hr]
      exact .inr rfl
    · obtain rfl : [.reference name] = body := Option.some.inj hb
      rw [List.mem_singleton.mp hr]
      exact .inl rfl

private theorem bodied :
    Services.still.Bodied context (fun name _ => .error (.unknown name)) bodies
      [.reference name] where
  steady := fun _ _ _ => rfl
  valued := fun node hu => by
    rcases name_or_home_of_uses hu with rfl | rfl
    · decide
    · decide

private theorem circle : TransGen (Refers bodies) name.node name.node :=
  .tail (.single ⟨_, rfl, home, List.mem_cons_self, rfl⟩)
    ⟨_, rfl, name, List.mem_cons_self, rfl⟩

/-- No value on this circle names its own key, so no pass flags it. -/
theorem status_expand_name :
    let answer : Text → Text → Except CommandError Text := fun name _ => .error (.unknown name)
    (Services.still.Bodied context answer bodies [.reference name] ∧ context.recursive = true ∧
      Uses bodies [.reference name] name.node ∧ TransGen (Refers bodies) name.node name.node ∧
      Services.still.valueOf? context answer name.node ≠ some name.literal) ∧
    ((Engine.standard Services.still).expand context (render [.reference name]) ()).1.outcome.status
      ≠ .complete := by
  intro answer
  have huses : Uses bodies [.reference name] name.node := .of_mem List.mem_cons_self
  have hvalue : Services.still.valueOf? context answer name.node ≠ some name.literal := by decide
  refine ⟨⟨bodied, rfl, huses, circle, hvalue⟩, ?_⟩
  have hstatus := Services.status_expand_of_cycle () bodied rfl huses circle fun _ => hvalue
  intro hcomplete
  simp only [hcomplete] at hstatus
  rcases hstatus with h | h | ⟨h, _⟩ <;> cases h

end Mutual
end Placeholders
