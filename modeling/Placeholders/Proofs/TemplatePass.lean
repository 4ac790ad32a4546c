import Placeholders.Proofs.CircularDetection
import Placeholders.Proofs.Templates

/-! One pass over a template. It replaces each reference by its value, if it has one, and leaves all
else, whatever the literals look like side by side. -/

namespace Placeholders

def Piece.filled (value? : Reference → Option Text) : Piece → Text
  | .reference r => (value? r).getD r.literal
  | piece => piece.render

namespace Services
open Template
variable {σ : Type} {services : Services σ} {context : Context} {text : Text} {template : Template}
  {state : σ}

theorem fault?_render_eq_none
    (h : ∀ r ∈ references template, services.faultAt? context r.grammar.ns r.key = none) :
    services.fault? context (render template) = none := by
  apply services.fault?_eq_none_of_forall
  intro ns token ht
  obtain ⟨r, hr, rfl, rfl⟩ := mem_scan_render.mp ht
  exact h r hr

/-- A pass over a template fails only where the lookup of a reference does. -/
theorem exists_faultAt?_of_pass_eq_error {fault : Fault} {after : σ}
    (h : (Engine.standard services).pass context (render template) state = (.error fault, after)) :
    ∃ r ∈ references template, services.faultAt? context r.grammar.ns r.key ≠ none := by
  obtain ⟨hf, _⟩ := (services.pass_eq_error_iff_fault? context _ state).mp h
  by_contra hno
  push Not at hno
  rw [fault?_render_eq_none hno] at hf
  cases hf

/-- A pass that neither fails nor flags a token binds each token to what it yields. -/
theorem get?_of_unflagged (hf : services.fault? context text = none)
    (hu : services.flagged? context text = none) {token : Token} (h : token ∈ scanAll text)
    {value : Text} :
    (services.afterParts context text state Namespace.all).substitution.get? token.literal =
        some value ↔ services.Yields context text state token value := by
  rw [get?_afterParts]
  constructor
  · rintro ⟨ns, _, other, ho, hl, hy⟩
    rwa [eq_of_mem_scan (services.mem_scan_of_mem_resolved context text ho) (mem_scanAll.mp h) hl]
      at hy
  · intro hy
    exact ⟨token.ns, token.ns.mem_all, token, mem_resolved_of_unflagged hf hu h, rfl, hy⟩

def Fills (services : Services σ) (context : Context) (template : Template) (state : σ)
    (value? : Reference → Option Text) : Prop :=
  ∀ r ∈ references template, ∀ value,
    services.Yields context (render template) state r.token value ↔ value? r = some value

private theorem lookup_dollarLiteral :
    (services.afterParts context text state Namespace.all).substitution.effective.lookup
      Grammar.dollarLiteral = none := by
  rw [Option.eq_none_iff_forall_ne_some]
  intro value hl
  obtain ⟨token, hr, hl⟩ :=
    services.exists_token_of_get? context text state _
      (Substitution.lookup_effective_eq_some_iff.mp hl).1
  exact hr.literal_ne_dollarLiteral hl

private theorem get?_reference (hf : services.fault? context (render template) = none)
    (hu : services.flagged? context (render template) = none) {r : Reference}
    (hr : r ∈ references template) {value : Text} :
    (services.afterParts context (render template) state Namespace.all).substitution.get?
        r.literal = some value ↔
      services.Yields context (render template) state r.token value :=
  get?_of_unflagged hf hu (mem_scanAll.mpr (mem_scan_render.mpr ⟨r, hr, rfl, rfl⟩))

/-- A pass over a template replaces each reference by its value and leaves all else. -/
theorem result_finished_render (hf : services.fault? context (render template) = none)
    (hu : services.flagged? context (render template) = none) {value? : Reference → Option Text}
    (h : services.Fills context template state value?) :
    (services.finished context (render template) state).result =
      template.flatMap (Piece.filled value?) := by
  rw [finished, Pass.finish, input_afterParts, Substitution.result_apply,
    Substitution.sweep_render (services.literalsOnly_afterParts context _ state _)
      (Substitution.nodup_effective _)]
  apply List.flatMap_congr
  intro piece hp
  cases piece with
  | verbatim text _ => rfl
  | dollar =>
    rw [Piece.swept, lookup_dollarLiteral]
    rfl
  | reference r =>
    have hr : r ∈ references template := List.mem_filterMap.mpr ⟨_, hp, rfl⟩
    have hget {value : Text} := (get?_reference hf hu hr).trans (h r hr value)
    rw [Piece.swept, Piece.filled]
    cases hl : List.lookup r.literal
        (services.afterParts context (render template) state Namespace.all).substitution.effective with
    | some value =>
      rw [hget.mp (Substitution.lookup_effective_eq_some_iff.mp hl).1]
    | none =>
      cases hv : value? r with
      | none => rfl
      | some value =>
        -- the value is recorded but not effective, so it is the literal
        by_contra hne
        have hsome := Substitution.lookup_effective_eq_some_iff.mpr ⟨hget.mpr hv, hne⟩
        rw [hl] at hsome
        cases hsome

/-- Such a pass changes something if some reference has a value other than its own literal. -/
theorem changed_finished_render (hf : services.fault? context (render template) = none)
    (hu : services.flagged? context (render template) = none) {value? : Reference → Option Text}
    (h : services.Fills context template state value?) :
    (services.finished context (render template) state).changed = true ↔
      ∃ r ∈ references template, ∃ value, value? r = some value ∧ value ≠ r.literal := by
  rw [← not_iff_not, Bool.not_eq_true, changed_finished_eq_false_iff]
  push Not
  constructor
  · intro hsame r hr value hv
    have hscan := mem_scan_render.mpr ⟨r, hr, rfl, rfl⟩
    exact hsame _ r.token (mem_resolved_of_unflagged hf hu (mem_scanAll.mpr hscan)) value
      ((h r hr value).mpr hv)
  · intro hsame ns token ht value hy
    obtain ⟨r, hr, _, rfl⟩ :=
      mem_scan_render.mp (services.mem_scan_of_mem_resolved context (render template) ht)
    exact hsame r hr value ((h r hr value).mp hy)

end Services
end Placeholders
