import Placeholders.Proofs.CommandCalls
import Placeholders.Proofs.PairedRuns

/-! Keys that no placeholder can name. Whatever values were put into a text, a scan of it never
returns such a key, and the folder of the commands has a key that can be named. So tables of
variables that answer all other keys alike give the same expansions. -/

namespace Placeholders
namespace Grammar

/-- A key that is no word, or the one of the escape for a dollar sign. -/
def Unreadable (key : Text) : Prop :=
  key = [] ∨ (∃ c ∈ key, Text.isWord c = false) ∨ key = dollarKey

instance : DecidablePred Unreadable := fun key =>
  decidable_of_iff (key = [] ∨ (key.any fun c => !Text.isWord c) = true ∨ key = dollarKey)
    (by simp [Unreadable])

theorem not_unreadable_iff {key : Text} :
    ¬ Unreadable key ↔ plain.keys.Admits key ∧ plain.keeps key = true := by
  simp [Unreadable, plain, KeyClass.Admits, keeps, and_assoc]

/-- The unreadable keys are those that no variable placeholder of any text has. -/
theorem unreadable_iff_forall_mem_scan {key : Text} :
    Unreadable key ↔ ∀ text, ∀ token ∈ Placeholders.scan text .variable, token.key ≠ key := by
  constructor
  · rintro hkey text token ht rfl
    obtain ⟨⟨g, hg, hadmits, hkeeps, he⟩, hns, _⟩ := readable_of_mem_scan ht
    have hvariable : g.ns = .variable := by rwa [he] at hns
    obtain rfl := eq_of_ns_eq hg plain_mem_table hvariable (by simp [hvariable])
    exact not_unreadable_iff.mpr ⟨hadmits, hkeeps⟩ hkey
  · intro hscan
    by_contra hkey
    obtain ⟨hadmits, hkeeps⟩ := not_unreadable_iff.mp hkey
    have hreadable : (plain.token key).Readable :=
      ⟨plain, plain_mem_table, hadmits, hkeeps, rfl⟩
    exact hscan _ _ hreadable.mem_scan_literal rfl

/-- What is required of every table has a key that placeholders can name. -/
theorem not_unreadable_key (r : Required) : ¬ Unreadable r.key := by
  cases r <;> decide

end Grammar

namespace Variables
open Grammar
variable {vars others : Variables}

/-- The tables differ at most at keys that no placeholder can name. -/
def SameReadable (vars others : Variables) : Prop :=
  ∀ key, ¬ Unreadable key → others.get? key = vars.get? key

theorem SameReadable.get?_of_mem_scan (h : vars.SameReadable others) {text : Text} {token : Token}
    (ht : token ∈ scan text .variable) : others.get? token.key = vars.get? token.key :=
  h token.key fun hkey => unreadable_iff_forall_mem_scan.mp hkey text token ht rfl

theorem SameReadable.required_eq (h : vars.SameReadable others) (r : Required) :
    others.required r = vars.required r := by
  have hr : others.table.get? r.key = vars.table.get? r.key := h r.key (not_unreadable_key r)
  simp only [required, hr]

end Variables

namespace Services
open Engine Grammar
variable {σ : Type} (services : Services σ) {context : Context} {vars : Variables}

private theorem commandAnswers_withVariables (h : context.vars.SameReadable vars) (text : Text)
    (state : σ) :
    services.commandAnswers { context with vars := vars } text state =
      services.commandAnswers context text state := by
  have hfolder : Context.workspaceFolder { context with vars := vars } = context.workspaceFolder :=
    h.required_eq .workspaceFolder
  rw [commandAnswers, commandAnswers, hfolder]

/-- Tables that answer the readable keys alike add the same to a pass. -/
private theorem part_withVariables (h : context.vars.SameReadable vars) (text : Text) (state : σ) :
    services.part { context with vars := vars } text state = services.part context text state := by
  have hscan : ∀ token ∈ scan text .variable, vars.get? token.key = context.vars.get? token.key :=
    fun _ ht => h.get?_of_mem_scan ht
  have hanswers := services.commandAnswers_withVariables h text state
  funext ns
  cases ns with
  | «variable» =>
    rw [part, part, resolved_eq_scan _ _ _ (by simp) (by simp),
      resolved_eq_scan _ _ _ (by simp) (by simp), recorded_congr hscan, unknown_congr hscan]
  | command => rw [part, part, commandProblems, commandProblems, hanswers]
  | _ => rfl

private theorem expand_withVariables (h : context.vars.SameReadable vars) (input : Text)
    (state : σ) :
    (Engine.standard services).expand { context with vars := vars } input state =
      (Engine.standard services).expand context input state := by
  refine expand_eq_of_agree rfl fun _ text _ _ => agree_of_part rfl ?_
  rintro world _ rfl
  refine ⟨services.part_withVariables h text world, ?_⟩
  rw [services.commandAnswers_withVariables h text world]

/-- Two tables of variables that differ only at keys that are empty, are no words or are the key of
the escape cannot be told apart: an expansion gives the same outcome, the same problems and the same
state of the world, down to a transcript of the commands. -/
theorem unreadableVariables_uninvolved (services : Services σ) (context : Context)
    (vars : Variables) (h : context.vars.SameReadable vars) (input : Text) (state : σ) :
    (Engine.standard services).expand { context with vars := vars } input state =
        (Engine.standard services).expand context input state ∧
      ∀ transcript, (Engine.standard services.recording).expand { context with vars := vars } input
          (transcript, state) =
        (Engine.standard services.recording).expand context input (transcript, state) :=
  ⟨services.expand_withVariables h input state, fun transcript =>
    services.recording.expand_withVariables h input (transcript, state)⟩

/-- Values for the empty key, for one with a hyphen and for the key of the escape. A string that
names all three is left as it is, but for the escape and a variable between them. -/
theorem unreadableVariables_uninvolved_still :
    let plainly := Variables.bind .bare "a".toList "$\x7ba-b\x7d".toList (by decide) (by decide)
    let vars := ((plainly.bind "dollar".toList "x".toList (by decide) (by decide)).bind
      "a-b".toList "y".toList (by decide) (by decide)).bind [] "z".toList (by decide) (by decide)
    let context : Context := { vars := plainly }
    let input := "$\x7b\x7d$\x7ba\x7d$\x7ba-b\x7d$\x7bdollar\x7d".toList
    context.vars.SameReadable vars ∧
      (Engine.standard still).expand { context with vars := vars } input () =
        (⟨{ result := "$\x7b\x7d$\x7ba-b\x7d$\x7ba-b\x7d$".toList, changed := true,
            status := .complete, passes := 2 }, []⟩, ()) := by
  intro plainly vars context input
  have hagree : context.vars.SameReadable vars := by
    intro key hkey
    have hempty : key ≠ [] := fun he => hkey (.inl he)
    have hhyphen : key ≠ "a-b".toList := by
      rintro rfl
      exact hkey (by decide)
    have hdollar : key ≠ "dollar".toList := fun he => hkey (.inr (.inr he))
    exact (Table.get?_insert_of_ne hempty _ _).trans
      ((Table.get?_insert_of_ne hhyphen _ _).trans (Table.get?_insert_of_ne hdollar _ _))
  obtain ⟨hsame, _⟩ := unreadableVariables_uninvolved still context vars hagree input ()
  refine ⟨hagree, ?_⟩
  rw [hsame]
  decide +kernel

end Services
end Placeholders
