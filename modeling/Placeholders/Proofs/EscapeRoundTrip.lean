import Placeholders.Proofs.PassSequence
import Placeholders.Proofs.TemplatePass

/-! Escaped text. It is a template without references, whatever it was before, so an expansion gives
the text back and asks nobody for a value. -/

namespace Placeholders
open Template

def escape (text : Text) : Text :=
  text.flatMap fun c => if c = '$' then Grammar.dollarLiteral else [c]

def Template.escaped (text : Text) : Template :=
  text.map fun c => if h : c = '$' then .dollar else .verbatim [c] (by simpa using Ne.symm h)

namespace Template

theorem render_escaped (text : Text) : render (escaped text) = escape text := by
  rw [render, escaped, escape, List.flatMap_map]
  apply List.flatMap_congr
  intro c _
  by_cases h : c = '$' <;> simp [h, Piece.render]

theorem shown_escaped (text : Text) : shown (escaped text) = text := by
  induction text with
  | nil => rfl
  | cons c text ih =>
    have hc : (if h : c = '$' then Piece.dollar
        else .verbatim [c] (by simpa using Ne.symm h)).shown = [c] := by
      by_cases h : c = '$' <;> simp [h, Piece.shown]
    rw [escaped, List.map_cons, shown, List.flatMap_cons, hc]
    exact congrArg (c :: ·) ih

theorem references_escaped (text : Text) : references (escaped text) = [] := by
  rw [references, List.filterMap_eq_nil_iff]
  intro piece hp
  obtain ⟨c, _, rfl⟩ := List.mem_map.mp hp
  by_cases h : c = '$' <;> simp [h, Piece.reference?]

end Template

theorem unescape_escape (text : Text) : Substitution.unescape (escape text) = text := by
  rw [← render_escaped, Substitution.unescape_render, shown_escaped]

/-- No spelling can be read in escaped text, the escapes apart. -/
theorem scan_escape (text : Text) (ns : Namespace) : scan (escape text) ns = [] := by
  rw [List.eq_nil_iff_forall_not_mem]
  intro token ht
  rw [← render_escaped] at ht
  obtain ⟨r, hr, _⟩ := mem_scan_render.mp ht
  rw [references_escaped] at hr
  cases hr

namespace Services
variable {σ : Type} (services : Services σ) (context : Context) (state : σ)

/-- The pass over the name of a variable that is bound to an escaped text. -/
private theorem pass_plain {text key : Text} (hk : KeyClass.word.Admits key)
    (hne : key ≠ Grammar.dollarKey) (hv : context.vars.get? key = some (escape text)) :
    ∃ pass, (Engine.standard services).pass context (Grammar.plain.literal key) state =
        (.ok pass, state) ∧
      pass.result = escape text ∧ pass.changed = true ∧ pass.circular = none ∧
        pass.problems = [] := by
  let r : Reference := .plain key hk hne
  have hrender : Grammar.plain.literal key = render [.reference r] := (List.append_nil _).symm
  have hrefs : ∀ s ∈ references [.reference r], s = r := fun s hs => List.mem_singleton.mp hs
  have hother (ns : Namespace) (h : ns ≠ .variable) : scan (render [.reference r]) ns = [] := by
    rw [List.eq_nil_iff_forall_not_mem]
    intro token ht
    obtain ⟨s, hs, hns, _⟩ := mem_scan_render.mp ht
    rw [hrefs s hs] at hns
    exact h hns.symm
  have hf : services.fault? context (render [.reference r]) = none :=
    fault?_render_eq_none fun s hs => by rw [hrefs s hs]; rfl
  have hu := services.flagged?_of_scan_eq_nil context _ (hother .environment (by decide))
  have hfills : services.Fills context [.reference r] state fun _ => some (escape text) := by
    intro s hs value
    rw [hrefs s hs, ← hv]
    exact Iff.rfl
  have hchanged : escape text ≠ r.literal := by
    intro he
    have ht := r.readable.mem_scan_literal
    rw [show r.token.literal = escape text from he.symm, scan_escape] at ht
    cases ht
  have hcommand := hother .command (by decide)
  refine ⟨services.finished context (render [.reference r]) state, ?_, ?_, ?_, ?_, ?_⟩
  · rw [hrender, pass_of_fault?_eq_none _ _ _ _ hf, commandAnswers_of_scan_eq_nil _ _ _ _ hcommand]
  · rw [result_finished_render hf hu hfills]
    exact List.append_nil _
  · exact (changed_finished_render hf hu hfills).mpr ⟨r, List.mem_singleton_self r, _, rfl, hchanged⟩
  · rw [circular_finished, hu]
  · refine services.problems_finished_eq_nil context _ state (fun token ht => ?_) hcommand
    obtain ⟨s, hs, _, rfl⟩ := mem_scan_render.mp ht
    rw [hrefs s hs]
    exact Option.isSome_iff_exists.mpr ⟨_, hv⟩

/-- Escaped text expands to the text itself in one pass, without a change, a problem or a call of a
command. So does the name of a variable bound to it, but for the change and, where results are
expanded again, a second pass. -/
theorem expand_escape (text : Text) :
    (Engine.standard services).expand context (escape text) state =
        (⟨{ result := text, changed := false, status := .complete, passes := 1 }, []⟩, state) ∧
      ∀ key, KeyClass.word.Admits key → key ≠ Grammar.dollarKey →
        context.vars.get? key = some (escape text) →
        (Engine.standard services).expand context (Grammar.plain.literal key) state =
          (⟨{ result := text, changed := true, status := .complete,
              passes := if context.recursive then 2 else 1 }, []⟩, state) := by
  have hpass := services.pass_of_scan_eq_nil context (escape text) state (scan_escape text)
  have hstop (n : Nat) :
      ¬ Engine.Continues context n ⟨escape text, escape text, false, none, []⟩ :=
    Engine.not_continues_of_unchanged rfl
  constructor
  · rw [Engine.expand_of_first_last hpass rfl (hstop 0)]
    simp [Engine.lastOutcome, Engine.endingOf, unescape_escape, maxPasses]
  · intro key hk hne hv
    obtain ⟨pass, hp, hresult, hch, hcirc, hproblems⟩ := services.pass_plain context state hk hne hv
    by_cases hrec : context.recursive = true
    · have hc : Engine.Continues context 0 pass := ⟨hcirc, by decide, hrec, hch⟩
      have hsecond : (Engine.standard services).pass context pass.result state =
          (.ok ⟨escape text, escape text, false, none, []⟩, state) := by
        rw [hresult]
        exact hpass
      rw [Engine.expand_of_second_last hp hc hsecond rfl (hstop 1)]
      simp [Engine.lastOutcome, Engine.endingOf, unescape_escape, maxPasses, hrec, hproblems]
    · have hc : ¬ Engine.Continues context 0 pass := fun hc => hrec hc.2.2.1
      rw [Engine.expand_of_first_last hp hcirc hc]
      simp [Engine.lastOutcome, Engine.endingOf, unescape_escape, maxPasses, hrec, hproblems,
        hresult, hcirc, hch]

/-- A variable bound to the escaped form of the escape itself. -/
theorem expand_escape_dollarLiteral :
    let vars := Variables.bare.bind "k".toList (escape Grammar.dollarLiteral) (by decide) (by decide)
    (KeyClass.word.Admits "k".toList ∧ "k".toList ≠ Grammar.dollarKey ∧
      vars.get? "k".toList = some (escape Grammar.dollarLiteral)) ∧
      (Engine.standard still).expand { vars := vars } (Grammar.plain.literal "k".toList) () =
        (⟨{ result := Grammar.dollarLiteral, changed := true, status := .complete, passes := 2 },
          []⟩, ()) := by
  have hk : KeyClass.word.Admits "k".toList := by decide
  have hne : "k".toList ≠ Grammar.dollarKey := by decide
  have hv := Variables.bare.get?_bind_self "k".toList (escape Grammar.dollarLiteral) (by decide)
    (by decide)
  exact ⟨⟨hk, hne, hv⟩, (expand_escape still { vars := Variables.bare.bind "k".toList _ _ _ } ()
    Grammar.dollarLiteral).2 _ hk hne hv⟩

end Services
end Placeholders
