import Mathlib.Logic.ExistsUnique
import Mathlib.Tactic.ByContra
import Placeholders.Text.Basic

/-! Searches that run over a text from left to right. A pattern says where something starts and how
far it reaches; the spans of a text are what is found at the first such place, then at the first one
behind it, and so on. They are there for every pattern and every text, and in one way only. -/

namespace Placeholders

/-- A text cut at spans: each span with the gap in front of it, then the last gap. -/
structure Spans where
  pieces : List (Text × Text)
  last : Text
  deriving DecidableEq, Repr

namespace Spans

def text (spans : Spans) : Text :=
  (spans.pieces.flatMap fun (gap, span) => gap ++ span) ++ spans.last

def found (spans : Spans) : List Text := spans.pieces.map Prod.snd

def keep (c : Char) : Spans → Spans
  | ⟨[], last⟩ => ⟨[], c :: last⟩
  | ⟨(gap, span) :: pieces, last⟩ => ⟨(c :: gap, span) :: pieces, last⟩

@[simp] theorem text_nil (last : Text) : text ⟨[], last⟩ = last := rfl

theorem text_cons (gap span : Text) (pieces : List (Text × Text)) (last : Text) :
    text ⟨(gap, span) :: pieces, last⟩ = gap ++ (span ++ text ⟨pieces, last⟩) := by
  simp [text]

end Spans

structure Pattern where
  /-- Something starts at the front of a text. -/
  Starts : Text → Prop
  /-- A span is what is found where it starts, with the given rest behind it. -/
  Reads : Text → Text → Prop
  starts_iff : ∀ {text : Text}, Starts text ↔ ∃ span rest, span ++ rest = text ∧ Reads span rest
  ne_nil : ∀ {span rest : Text}, Reads span rest → span ≠ []
  eq_of_append_eq : ∀ {span rest other behind : Text}, Reads span rest → Reads other behind →
    span ++ rest = other ++ behind → span = other

namespace Pattern
variable {pattern : Pattern}

/-- Nothing starts within a gap, not even what would reach into the rest behind it. -/
def Silent (pattern : Pattern) (gap rest : Text) : Prop :=
  ∀ i < gap.length, ¬ pattern.Starts ((gap ++ rest).drop i)

/-- The spans found in a text: behind a gap in which nothing starts comes what is read there, and
the search goes on behind that. -/
inductive Finds (pattern : Pattern) : Text → Spans → Prop
  | done {last : Text} : pattern.Silent last [] → Finds pattern last ⟨[], last⟩
  | next {gap span rest : Text} {pieces : List (Text × Text)} {last : Text} :
      pattern.Silent gap (span ++ rest) → pattern.Reads span rest →
      Finds pattern rest ⟨pieces, last⟩ →
      Finds pattern (gap ++ (span ++ rest)) ⟨(gap, span) :: pieces, last⟩

theorem silent_nil (rest : Text) : pattern.Silent [] rest := nofun

theorem silent_cons_iff {c : Char} {gap rest : Text} :
    pattern.Silent (c :: gap) rest ↔
      ¬ pattern.Starts (c :: (gap ++ rest)) ∧ pattern.Silent gap rest := by
  constructor
  · intro h
    exact ⟨h 0 (Nat.zero_lt_succ _), fun i hi => h (i + 1) (Nat.succ_lt_succ hi)⟩
  · rintro ⟨hfirst, hgap⟩ i hi
    cases i with
    | zero => exact hfirst
    | succ i => exact hgap i (Nat.lt_of_succ_lt_succ hi)

theorem starts_of_reads {span rest : Text} (h : pattern.Reads span rest) :
    pattern.Starts (span ++ rest) :=
  pattern.starts_iff.mpr ⟨span, rest, rfl, h⟩

namespace Finds

theorem text_eq {text : Text} {spans : Spans} (h : pattern.Finds text spans) :
    spans.text = text := by
  induction h with
  | done _ => rfl
  | next _ _ _ ih => rw [Spans.text_cons, ih]

/-- A character at which nothing starts goes into the gap behind it. -/
theorem keep {c : Char} {text : Text} {spans : Spans} (h : pattern.Finds text spans)
    (hc : ¬ pattern.Starts (c :: text)) : pattern.Finds (c :: text) (spans.keep c) := by
  cases h with
  | done hsilent => exact .done (silent_cons_iff.mpr ⟨by simpa using hc, hsilent⟩)
  | next hsilent hreads hrest => exact .next (silent_cons_iff.mpr ⟨hc, hsilent⟩) hreads hrest

end Finds

/-- Where something is read nothing can have been silent. -/
private theorem length_le_of_silent {gap rest other span behind : Text}
    (h : pattern.Silent gap rest) (hreads : pattern.Reads span behind)
    (he : gap ++ rest = other ++ (span ++ behind)) : gap.length ≤ other.length := by
  by_contra hlt
  refine h other.length (by omega) ?_
  rw [he, List.drop_left]
  exact starts_of_reads hreads

theorem exists_finds (pattern : Pattern) (text : Text) : ∃ spans, pattern.Finds text spans := by
  induction hn : text.length using Nat.strongRecOn generalizing text with
  | _ n ih =>
    by_cases hstarts : pattern.Starts text
    · obtain ⟨span, rest, rfl, hreads⟩ := pattern.starts_iff.mp hstarts
      have hspan := List.length_pos_iff.mpr (pattern.ne_nil hreads)
      rw [List.length_append] at hn
      obtain ⟨⟨pieces, last⟩, hrest⟩ := ih rest.length (by omega) rest rfl
      exact ⟨⟨([], span) :: pieces, last⟩, .next (silent_nil _) hreads hrest⟩
    · cases text with
      | nil => exact ⟨⟨[], []⟩, .done (silent_nil _)⟩
      | cons c text =>
        rw [List.length_cons] at hn
        obtain ⟨spans, hrest⟩ := ih text.length (by omega) text rfl
        exact ⟨spans.keep c, hrest.keep hstarts⟩

/-- A text is searched in one way only. -/
theorem Finds.unique {text : Text} {spans others : Spans} (h : pattern.Finds text spans)
    (ho : pattern.Finds text others) : spans = others := by
  induction h generalizing others with
  | @done last hsilent =>
    cases ho with
    | done => rfl
    | @next gap span rest _ _ _ hreads _ =>
      have hle := length_le_of_silent hsilent hreads (List.append_nil _)
      have hspan := List.length_pos_iff.mpr (pattern.ne_nil hreads)
      simp only [List.length_append] at hle
      omega
  | @next gap span rest pieces last hsilent hreads hrest ih =>
    generalize htext : gap ++ (span ++ rest) = text at ho
    cases ho with
    | done hother =>
      have hle := length_le_of_silent hother hreads (by rw [List.append_nil, htext])
      have hspan := List.length_pos_iff.mpr (pattern.ne_nil hreads)
      rw [← htext] at hle
      simp only [List.length_append] at hle
      omega
    | @next gap' span' rest' _ _ hsilent' hreads' hrest' =>
      have hgap : gap.length = gap'.length :=
        Nat.le_antisymm (length_le_of_silent hsilent hreads' htext)
          (length_le_of_silent hsilent' hreads htext.symm)
      obtain ⟨rfl, hbehind⟩ := List.append_inj htext hgap
      obtain rfl := pattern.eq_of_append_eq hreads hreads' hbehind
      obtain rfl := List.append_cancel_left hbehind
      obtain ⟨rfl, rfl⟩ := Spans.mk.inj (ih hrest')
      rfl

theorem existsUnique_finds (pattern : Pattern) (text : Text) :
    ∃! spans, pattern.Finds text spans := by
  obtain ⟨spans, h⟩ := pattern.exists_finds text
  exact ⟨spans, h, fun _ ho => ho.unique h⟩

end Pattern
end Placeholders
