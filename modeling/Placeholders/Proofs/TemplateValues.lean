import Placeholders.Proofs.PassSequence
import Placeholders.Proofs.TemplatePass
import Placeholders.Proofs.Unfolding

/-! Templates whose values are templates. As long as no lookup fails and no token is flagged, a pass
over one unfolds it by one level. -/

namespace Placeholders
open Template

/-- Filling the references of a template with the texts of their bodies unfolds it by one level. -/
theorem Template.flatMap_filled (bodies : Bodies) (template : Template) :
    template.flatMap (Piece.filled fun r => (bodies r.node).map render) =
      render (template.unfold bodies) := by
  rw [render, Template.unfold, List.flatMap_assoc]
  apply List.flatMap_congr
  intro piece _
  cases piece with
  | reference r =>
    rw [Piece.filled, Piece.unfold]
    cases bodies r.node with
    | none => exact (List.append_nil _).symm
    | some body => rfl
  | _ => exact (List.append_nil _).symm

namespace Services
variable {σ : Type} (services : Services σ) (context : Context)
  (answer : Text → Text → Except CommandError Text)

def valueOf? : Node → Option Text
  | (.command, key) =>
    if context.commandsDisabled then none else (answer key context.workspaceFolder).toOption
  | (ns, key) => services.value? context ns key

/-- Where commands always answer the same, a token yields what its resolver records. -/
theorem yields_iff_valueOf? {services : Services σ} {context : Context}
    {answer : Text → Text → Except CommandError Text}
    (hs : ∀ name folder state, (services.execute name folder state).1 = answer name folder)
    {text value : Text} {state : σ} {token : Token} (h : token ∈ scan text token.ns) :
    services.Yields context text state token value ↔
      services.valueOf? context answer (token.ns, token.key) = some value := by
  rw [Yields]
  cases hns : token.ns with
  | command =>
    rw [hns] at h
    constructor
    · intro hm
      obtain ⟨hd, before, he⟩ := services.exists_execute_of_mem_commandAnswers context text state hm
      rw [hs] at he
      simp [valueOf?, hd, he, Except.toOption]
    · intro hv
      by_cases hd : context.commandsDisabled = true
      · simp [valueOf?, hd] at hv
      · obtain ⟨given, hm⟩ :=
          services.exists_mem_commandAnswers context text state (by simpa using hd) h
        obtain ⟨_, before, he⟩ := services.exists_execute_of_mem_commandAnswers context text state hm
        rw [hs] at he
        cases given with
        | error reason => simp [valueOf?, hd, he, Except.toOption] at hv
        | ok output =>
          simp [valueOf?, hd, he, Except.toOption] at hv
          rwa [← hv]
  | _ => rfl

/-- The bodies of all that a template uses are what the references stand for, in a world where
commands always answer the same. -/
structure Bodied (bodies : Bodies) (template : Template) : Prop where
  steady : ∀ name folder state, (services.execute name folder state).1 = answer name folder
  valued : ∀ node, Uses bodies template node →
    services.valueOf? context answer node = (bodies node).map render

namespace Bodied
variable {services context answer} {bodies : Bodies} {template : Template}

theorem unfold (h : services.Bodied context answer bodies template) :
    services.Bodied context answer bodies (template.unfold bodies) where
  steady := h.steady
  valued := fun node hu => h.valued node hu.of_unfold

/-- An environment reference leads back to itself if its body has a reference to it. -/
theorem leadsBack_iff (h : services.Bodied context answer bodies template) {r : Reference}
    (hr : r ∈ references template) (hns : r.grammar.ns = .environment) :
    services.LeadsBack context r.token ↔ Refers bodies r.node r.node := by
  have hvalue : services.value? context .environment r.key = (bodies r.node).map render := by
    rw [← h.valued r.node (.of_mem hr), show r.node = (.environment, r.key) from Prod.ext hns rfl]
    rfl
  constructor
  · rintro ⟨raw, hraw, other, ho, hkey⟩
    rw [show services.value? context .environment r.key = some (services.normalize raw) from
      Lookup.value?_eq_some_iff.mpr ⟨raw, hraw, rfl⟩] at hvalue
    obtain ⟨body, hb, hrender⟩ := Option.map_eq_some_iff.mp hvalue.symm
    rw [← hrender] at ho
    obtain ⟨s, hs, hns', rfl⟩ := mem_scan_render.mp ho
    exact ⟨body, hb, s, hs, Prod.ext (hns'.trans hns.symm) hkey⟩
  · rintro ⟨body, hb, s, hs, he⟩
    rw [hb, Option.map_some] at hvalue
    obtain ⟨raw, hraw, hnormal⟩ := Lookup.value?_eq_some_iff.mp hvalue
    obtain ⟨hns', hkey⟩ := Prod.mk.inj he
    refine ⟨raw, hraw, s.token, ?_, hkey⟩
    rw [hnormal]
    exact mem_scan_render.mpr ⟨s, hs, hns'.trans hns, rfl⟩

private theorem fills (h : services.Bodied context answer bodies template) (state : σ) :
    services.Fills context template state fun r => (bodies r.node).map render := by
  intro r hr value
  refine (yields_iff_valueOf? h.steady (mem_scan_render.mpr ⟨r, hr, rfl, rfl⟩)).trans ?_
  show services.valueOf? context answer r.node = some value ↔ _
  rw [h.valued r.node (.of_mem hr)]

/-- A pass over such a template unfolds it by one level. -/
theorem result_finished (h : services.Bodied context answer bodies template)
    (hf : services.fault? context (render template) = none)
    (hu : services.flagged? context (render template) = none) (state : σ) :
    (services.finished context (render template) state).result =
      render (template.unfold bodies) := by
  rw [result_finished_render hf hu (h.fills state), flatMap_filled]

/-- It changes something unless every body is the reference itself. -/
theorem changed_finished_iff (h : services.Bodied context answer bodies template)
    (hf : services.fault? context (render template) = none)
    (hu : services.flagged? context (render template) = none) (state : σ) :
    (services.finished context (render template) state).changed = true ↔
      ∃ r ∈ references template, ∃ body, bodies r.node = some body ∧ render body ≠ r.literal := by
  rw [changed_finished_render hf hu (h.fills state)]
  refine exists_congr fun r => and_congr_right fun _ => ?_
  cases bodies r.node <;> simp

/-- Pass number `n` starts on the text unfolded by `n` levels. -/
theorem eq_of_reaches (h : services.Bodied context answer bodies template) {state before : σ}
    {n : Nat} {text : Text}
    (hr : (Engine.standard services).Reaches context (render template) state n text before) :
    services.Bodied context answer bodies ((Template.unfold bodies)^[n] template) ∧
      text = render ((Template.unfold bodies)^[n] template) := by
  induction hr with
  | start => exact ⟨h, rfl⟩
  | @next n text before after pass _ hp hc ih =>
    obtain ⟨hbodied, rfl⟩ := ih
    obtain ⟨hf, rfl, _⟩ := (services.pass_eq_ok_iff context _ before).mp hp
    have hu := hc.1
    rw [circular_finished] at hu
    rw [Function.iterate_succ_apply']
    exact ⟨hbodied.unfold, hbodied.result_finished hf hu before⟩

end Bodied
end Services
end Placeholders
