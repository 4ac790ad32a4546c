import Placeholders.Proofs.CommandCalls
import Placeholders.Proofs.TemplatePass

/-! The spellings of environment references. A text with such references can be written down in many
ways, as each of them has three spellings. If the first pass answers them all, it makes the same
string of every writing, and from there on nothing tells which one it was. -/

namespace Placeholders
open Template

/-- A piece of a text that is still to be written down: text without dollar signs, or a reference to
an environment variable by its key. -/
inductive Fragment where
  | verbatim (text : Text) (h : '$' ∉ text)
  | reference (key : Text) (hne : key ≠ []) (h : ∀ c ∈ key, c ≠ '$' ∧ c ≠ '}' ∧ c ≠ '\n')

namespace Fragment

def key? : Fragment → Option Text
  | .verbatim _ _ => none
  | .reference key _ _ => some key

def filled (value : Text → Text) : Fragment → Text
  | .verbatim text _ => text
  | .reference key _ _ => value key

end Fragment

def keysOf (fragments : List Fragment) : List Text := fragments.filterMap Fragment.key?

/-- The texts that fragments can be written as, each reference in any of its spellings. -/
inductive Spells : List Fragment → Text → Prop
  | nil : Spells [] []
  | verbatim {text : Text} {h : '$' ∉ text} {fragments : List Fragment} {rest : Text} :
      Spells fragments rest → Spells (.verbatim text h :: fragments) (text ++ rest)
  | reference {g : Grammar} (hg : g ∈ Grammar.ofNamespace .environment) {key : Text}
      {hne : key ≠ []} {h : ∀ c ∈ key, c ≠ '$' ∧ c ≠ '}' ∧ c ≠ '\n'}
      {fragments : List Fragment} {rest : Text} :
      Spells fragments rest → Spells (.reference key hne h :: fragments) (g.literal key ++ rest)

example : (Grammar.ofNamespace .environment).map (·.literal "k".toList) =
    ["$\x7benv:k\x7d".toList, "$\x7benv.k\x7d".toList, "$env\x7bk\x7d".toList] := by decide

structure SpelledAs (fragments : List Fragment) (template : Template) : Prop where
  environment : ∀ r ∈ references template, r.grammar.ns = .environment
  keys : (references template).map Reference.key = keysOf fragments
  filled : ∀ value : Text → Text, template.flatMap (Piece.filled fun r => some (value r.key)) =
    fragments.flatMap (Fragment.filled value)

theorem Spells.exists_template {fragments : List Fragment} {text : Text}
    (h : Spells fragments text) :
    ∃ template, render template = text ∧ SpelledAs fragments template := by
  induction h with
  | nil => exact ⟨[], rfl, by simp, rfl, fun _ => rfl⟩
  | @verbatim text htext fragments rest _ ih =>
    obtain ⟨template, rfl, hs⟩ := ih
    refine ⟨.verbatim text htext :: template, rfl, hs.environment, hs.keys, fun value => ?_⟩
    rw [List.flatMap_cons, List.flatMap_cons, hs.filled]
    rfl
  | @reference g hg key hne hkey fragments rest _ ih =>
    obtain ⟨template, rfl, hs⟩ := ih
    obtain ⟨htable, hns⟩ := List.mem_filter.mp hg
    have hline : ∀ e ∈ Grammar.ofNamespace .environment, e.keys = .line := by decide
    let r := Reference.line g htable (hline g hg) key hne hkey
    refine ⟨.reference r :: template, rfl, ?_, ?_, fun value => ?_⟩
    · exact List.forall_mem_cons.mpr ⟨of_decide_eq_true hns, hs.environment⟩
    · exact congrArg (key :: ·) hs.keys
    · rw [List.flatMap_cons, List.flatMap_cons, hs.filled]
      rfl

def Outcome.toldOf (input : Text) (outcome : Outcome) : Outcome :=
  { outcome with circular := outcome.circular.map fun reference => { reference with input } }

namespace Run
variable (pass : FinishedPass) (rest : List FinishedPass) {ending : Ending} (input other : Text)

private theorem text_of_first (ending : Ending) :
    text ⟨{ pass with input := other } :: rest, ending⟩ other =
      text ⟨pass :: rest, ending⟩ input := by
  cases rest <;> simp [text, List.getLast?_cons]

theorem outcome_of_first (h : ∀ fault, ending ≠ .faulted fault) :
    outcome ⟨{ pass with input := other } :: rest, ending⟩ other =
      (outcome ⟨pass :: rest, ending⟩ input).toldOf other := by
  have htext := text_of_first pass rest input other ending
  cases ending with
  | faulted fault => exact absurd rfl (h fault)
  | _ => simp [outcome, outcome?, htext, changed, Outcome.toldOf]

theorem problems_of_first (h : ∀ fault, ending ≠ .faulted fault) :
    problems ⟨{ pass with input := other } :: rest, ending⟩ other =
      problems ⟨pass :: rest, ending⟩ input := by
  have htext := text_of_first pass rest input other ending
  cases ending with
  | faulted fault => exact absurd rfl (h fault)
  | _ => simp [problems, passProblems, endProblems, htext]

end Run

namespace Engine
variable {σ : Type} {engine : Engine σ} {context : Context} {input other : Text} {state after : σ}
  {pass : FinishedPass}

/-- Where first passes differ in nothing but their input, runs differ in nothing else. -/
theorem run_of_first (hp : engine.pass context input state = (.ok pass, after))
    (hq : engine.pass context other state = (.ok { pass with input := other }, after)) :
    ∃ rest ending last, engine.run context input state = (⟨pass :: rest, ending⟩, last) ∧
      engine.run context other state = (⟨{ pass with input := other } :: rest, ending⟩, last) := by
  rw [run, run, maxPasses]
  cases hcirc : pass.circular with
  | some token =>
    exact ⟨[], .circular token, after, by simp [runFrom, hp, hcirc], by simp [runFrom, hq, hcirc]⟩
  | none =>
    by_cases hgo : (context.recursive && pass.changed) = true
    · obtain ⟨hrec, hch⟩ := Bool.and_eq_true_iff.mp hgo
      refine ⟨_, _, _, runFrom_of_continues hp hcirc hrec hch, ?_⟩
      rw [← hcirc]
      exact runFrom_of_continues hq hcirc hrec hch
    · exact ⟨[], .complete, after, by simp [runFrom, hp, hcirc, hgo],
        by simp [runFrom, hq, hcirc, hgo]⟩

end Engine

namespace Services
open Engine
variable {σ : Type} (services : Services σ) (context : Context) {fragments : List Fragment}
  {text : Text}

/-- Every reference of the fragments has a value, and none of the values names its own key. -/
def Answered (fragments : List Fragment) : Prop :=
  ∀ key ∈ keysOf fragments, ∃ raw, services.source context key = .ok raw ∧
    ∀ token ∈ scan (services.normalize raw) .environment, token.key ≠ key

def environmentValue (key : Text) : Text :=
  ((services.source context).value? services.normalize key).getD []

/-- What the first pass over any writing of the fragments comes to, but for its input. -/
def firstPass (fragments : List Fragment) (text : Text) : FinishedPass where
  input := text
  result := fragments.flatMap (Fragment.filled (services.environmentValue context))
  changed := !(keysOf fragments).isEmpty
  circular := none
  problems := []

variable {services context}

theorem environmentValue_eq {key : Text} {raw : Option Text}
    (h : services.source context key = .ok raw) :
    services.environmentValue context key = services.normalize raw := by
  rw [environmentValue, Lookup.value?, h]
  rfl

namespace Answered
variable {template : Template}

private theorem exists_raw (h : services.Answered context fragments)
    (hs : SpelledAs fragments template) {r : Reference} (hr : r ∈ references template) :
    ∃ raw, services.source context r.key = .ok raw ∧
      ∀ token ∈ scan (services.normalize raw) .environment, token.key ≠ r.key :=
  h r.key (hs.keys ▸ List.mem_map_of_mem hr)

private theorem fault?_eq_none (h : services.Answered context fragments)
    (hs : SpelledAs fragments template) : services.fault? context (render template) = none := by
  apply fault?_render_eq_none
  intro r hr
  obtain ⟨raw, hraw, _⟩ := h.exists_raw hs hr
  rw [hs.environment r hr]
  exact Lookup.fault?_eq_none_iff.mpr ⟨raw, hraw⟩

private theorem flagged?_eq_none (h : services.Answered context fragments)
    (hs : SpelledAs fragments template) : services.flagged? context (render template) = none := by
  by_contra hflag
  obtain ⟨token, ht, raw, hraw, other, ho, hkey⟩ :=
    (flagged_ne_none_iff (h.fault?_eq_none hs)).mp hflag
  obtain ⟨r, hr, _, rfl⟩ := mem_scan_render.mp ht
  obtain ⟨_, hraw', hother⟩ := h.exists_raw hs hr
  obtain rfl := Except.ok.inj (hraw.symm.trans hraw')
  exact hother other ho hkey

private theorem value?_eq (h : services.Answered context fragments)
    (hs : SpelledAs fragments template) {r : Reference} (hr : r ∈ references template) :
    services.value? context .environment r.key =
      some (services.environmentValue context r.key) := by
  obtain ⟨raw, hraw, _⟩ := h.exists_raw hs hr
  rw [environmentValue_eq hraw]
  exact Lookup.value?_eq_some_iff.mpr ⟨raw, hraw, rfl⟩

private theorem fills (h : services.Answered context fragments) (hs : SpelledAs fragments template)
    (state : σ) : services.Fills context template state
      fun r => some (services.environmentValue context r.key) := by
  intro r hr value
  have hns : r.token.ns = .environment := hs.environment r hr
  rw [Yields, hns]
  exact (h.value?_eq hs hr).congr_left

/-- The value of a reference differs from its literal, which names the key. -/
private theorem value_ne_literal (h : services.Answered context fragments)
    (hs : SpelledAs fragments template) {r : Reference} (hr : r ∈ references template) :
    services.environmentValue context r.key ≠ r.literal := by
  intro he
  obtain ⟨raw, hraw, hother⟩ := h.exists_raw hs hr
  rw [environmentValue_eq hraw] at he
  have hscan := r.readable.mem_scan_literal
  have hns : r.token.ns = .environment := hs.environment r hr
  rw [hns] at hscan
  exact hother r.token (he ▸ hscan) rfl

private theorem changed_finished (h : services.Answered context fragments)
    (hs : SpelledAs fragments template) (hf : services.fault? context (render template) = none)
    (hu : services.flagged? context (render template) = none) (state : σ) :
    (services.finished context (render template) state).changed = !(keysOf fragments).isEmpty := by
  rw [Bool.eq_iff_iff, changed_finished_render hf hu (h.fills hs state), ← hs.keys]
  constructor
  · rintro ⟨r, hr, _⟩
    simp [List.ne_nil_of_mem hr]
  · intro hkeys
    obtain ⟨r, hr⟩ : ∃ r, r ∈ references template := by
      refine List.exists_mem_of_ne_nil _ fun he => ?_
      simp [he] at hkeys
    exact ⟨r, hr, _, rfl, h.value_ne_literal hs hr⟩

/-- The first pass answers all references, and its result does not tell how they were spelled. -/
theorem pass_eq (h : services.Answered context fragments) (hs : Spells fragments text) (state : σ) :
    (Engine.standard services).pass context text state =
      (.ok (services.firstPass context fragments text), state) := by
  obtain ⟨template, rfl, hspelled⟩ := hs.exists_template
  have hf := h.fault?_eq_none hspelled
  have hu := h.flagged?_eq_none hspelled
  have hnone {ns : Namespace} (hne : ns ≠ .environment) : scan (render template) ns = [] := by
    rw [List.eq_nil_iff_forall_not_mem]
    intro token ht
    obtain ⟨r, hr, hns, _⟩ := mem_scan_render.mp ht
    exact hne (hns.symm.trans (hspelled.environment r hr))
  have hinput := services.input_finished context (render template) state
  have hresult := (result_finished_render hf hu (h.fills hspelled state)).trans (hspelled.filled _)
  have hchanged := h.changed_finished hspelled hf hu state
  have hcircular := (services.circular_finished context (render template) state).trans hu
  have hproblems := services.problems_finished_eq_nil context (render template) state
    (by simp [hnone]) (hnone (by decide))
  have hpass : services.finished context (render template) state =
      services.firstPass context fragments (render template) := by
    cases hfinished : services.finished context (render template) state
    simp only [hfinished] at hinput hresult hchanged hcircular hproblems
    rw [hinput, hresult, hchanged, hcircular, hproblems, firstPass]
  rw [services.pass_of_fault?_eq_none context _ state hf, hpass,
    services.commandAnswers_of_scan_eq_nil _ _ _ (hnone (by decide))]

/-- Two writings of the same fragments end alike, and what is told of them differs only in the name
of the string. -/
private theorem expand_alike (h : services.Answered context fragments) {first second : Text}
    (hfirst : Spells fragments first) (hsecond : Spells fragments second) (state : σ) :
    let expansion := (Engine.standard services).expand context first state
    let other := (Engine.standard services).expand context second state
    other.2 = expansion.2 ∧ other.1.outcome.status = expansion.1.outcome.status ∧
      (expansion.1.outcome.status ≠ .faulted →
        other.1 = ⟨expansion.1.outcome.toldOf second, expansion.1.problems⟩) := by
  obtain ⟨rest, ending, last, hrun, hother⟩ :=
    run_of_first (h.pass_eq hfirst state) (h.pass_eq hsecond state)
  dsimp only
  rw [expand_eq, expand_eq, hrun, hother]
  by_cases hfault : ∃ fault, ending = .faulted fault
  · obtain ⟨fault, rfl⟩ := hfault
    exact ⟨rfl, rfl, fun hne => absurd rfl hne⟩
  · have hno : ∀ fault, ending ≠ .faulted fault := not_exists.mp hfault
    rw [Run.outcome_of_first _ rest first second hno, Run.problems_of_first _ rest first second hno]
    exact ⟨rfl, rfl, fun _ => rfl⟩

end Answered

/-- A text with environment references, written down twice with any spellings, where the first pass
answers every reference by a value that does not name the key of the reference. Both expansions end
with the same status and leave the same state of the world, down to a transcript of the commands. If
they do not fail their outcomes and problems are the same, except that the descriptor of a circular
reference names the string that was expanded. -/
theorem spellings_interchangeable (services : Services σ) (context : Context) {first second : Text}
    (hfirst : Spells fragments first) (hsecond : Spells fragments second)
    (h : services.Answered context fragments) (state : σ) :
    let expansion := (Engine.standard services).expand context first state
    let other := (Engine.standard services).expand context second state
    other.2 = expansion.2 ∧
      (∀ transcript,
        ((Engine.standard services.recording).expand context second (transcript, state)).2 =
          ((Engine.standard services.recording).expand context first (transcript, state)).2) ∧
      other.1.outcome.status = expansion.1.outcome.status ∧
      (expansion.1.outcome.status ≠ .faulted →
        other.1 = ⟨expansion.1.outcome.toldOf second, expansion.1.problems⟩) := by
  obtain ⟨hstate, hstatus, houtcome⟩ := h.expand_alike hfirst hsecond state
  have hrecording : services.recording.Answered context fragments := h
  refine ⟨hstate, fun transcript => ?_, hstatus, houtcome⟩
  exact (hrecording.expand_alike hfirst hsecond (transcript, state)).1

/-- A variable whose value holds a command and a reference that leads back to itself, between braces
and next to a second reference. -/
theorem spellings_interchangeable_leadingBack :
    let context : Context :=
      { vars := .bare
        environmentOverride := some (Table.ofList
          [("A".toList, some "$env\x7bB\x7d$\x7bcommand:c\x7d".toList),
            ("B".toList, some "$\x7benv:B\x7d".toList)]) }
    let fragments : List Fragment :=
      [.verbatim "\x7b".toList (by decide), .reference "A".toList (by decide) (by simp),
        .verbatim "\x7d".toList (by decide), .reference "Z".toList (by decide) (by simp)]
    let first := "\x7b$\x7benv:A\x7d\x7d$env\x7bZ\x7d".toList
    let second := "\x7b$env\x7bA\x7d\x7d$\x7benv.Z\x7d".toList
    let text := "\x7b$env\x7bB\x7d$\x7bcommand:c\x7d\x7d".toList
    (Spells fragments first ∧ Spells fragments second ∧ still.Answered context fragments) ∧
      (Engine.standard still).expand context second () =
        (⟨{ result := text, changed := true,
            circular := some ⟨"B".toList, "$env\x7bB\x7d".toList, second⟩,
            status := .circularReference, passes := 2 },
          [⟨.commandExecutionFailed, "$\x7bcommand:c\x7d".toList⟩,
            ⟨.circularReference, "$env\x7bB\x7d".toList⟩]⟩, ()) := by
  intro context fragments first second text
  have hfirst : Spells fragments first :=
    .verbatim (.reference (g := ⟨.environment, "$\x7benv:".toList, .line⟩) (by decide)
      (.verbatim (.reference (g := ⟨.environment, "$env\x7b".toList, .line⟩) (by decide) .nil)))
  have hsecond : Spells fragments second :=
    .verbatim (.reference (g := ⟨.environment, "$env\x7b".toList, .line⟩) (by decide)
      (.verbatim (.reference (g := ⟨.environment, "$\x7benv.".toList, .line⟩) (by decide) .nil)))
  have hanswered : still.Answered context fragments := by
    have hkeys : keysOf fragments = ["A".toList, "Z".toList] := rfl
    intro key hkey
    rw [hkeys] at hkey
    simp only [List.mem_cons, List.not_mem_nil, or_false] at hkey
    rcases hkey with rfl | rfl
    · exact ⟨_, rfl, by decide +kernel⟩
    · exact ⟨_, rfl, by decide +kernel⟩
  obtain ⟨hstate, _, _, hsame⟩ :=
    spellings_interchangeable still context hfirst hsecond hanswered ()
  have houtcome := hsame (by decide +kernel)
  refine ⟨⟨hfirst, hsecond, hanswered⟩, ?_⟩
  rw [Prod.ext_iff, houtcome, hstate]
  decide +kernel

end Services
end Placeholders
