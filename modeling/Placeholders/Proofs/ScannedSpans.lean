import Placeholders.Proofs.LeftmostSpans
import Placeholders.Proofs.UniqueReading

/-! What a scan finds, told without the scanner. A spelling matches where its opening, a key of its
class and a closing brace stand; where several keys match at one place the shortest is read, which
cannot be for keys of word characters. A scan with a spelling returns exactly the spans that a
search for this finds, and a scan for a namespace those of all its spellings. -/

namespace Placeholders

def KeyClass.Has : KeyClass → Char → Prop
  | .word, c => Text.isWord c = true
  | .line, c => c ≠ '\n'

namespace Grammar
variable {g : Grammar} {key other text rest : Text}

structure Matches (g : Grammar) (key text : Text) : Prop where
  ne_nil : key ≠ []
  chars : ∀ c ∈ key, g.keys.Has c
  stands : g.literal key <+: text

/-- Of the keys of a line that match at a place the shortest is read. -/
structure Prefers (g : Grammar) (key text : Text) : Prop extends g.Matches key text where
  shortest : g.keys = .line → ∀ other, g.Matches other text → key.length ≤ other.length

private theorem eq_of_length_eq (hk : g.literal key <+: text) (ho : g.literal other <+: text)
    (h : key.length = other.length) : key = other := by
  have hlength : (g.literal key).length = (g.literal other).length := by simp [literal, h]
  have hliteral : g.literal key = g.literal other :=
    (List.prefix_of_prefix_length_le hk ho hlength.le).eq_of_length hlength
  exact List.append_cancel_left (List.append_cancel_right hliteral)

/-- A longer key that matches at the same place has a brace where the shorter one ends. -/
theorem Matches.exists_brace (hk : g.Matches key text) (ho : g.Matches other text)
    (h : key.length < other.length) : ∃ tail, other = key ++ '}' :: tail := by
  have hopen : g.opening ++ other <+: text := (List.prefix_append _ ['}']).trans ho.stands
  have hprefix : g.opening ++ (key ++ ['}']) <+: g.opening ++ other := by
    rw [← List.append_assoc]
    exact List.prefix_of_prefix_length_le hk.stands hopen (by simp; omega)
  obtain ⟨tail, htail⟩ := (List.prefix_append_right_inj _).mp hprefix
  exact ⟨tail, by simpa using htail.symm⟩

/-- A key of word characters is the only one that matches at its place. -/
theorem Matches.eq_of_word (hg : g.keys = .word) (hk : g.Matches key text)
    (ho : g.Matches other text) : key = other := by
  have hno {short long : Text} (hs : g.Matches short text) (hl : g.Matches long text) :
      long.length ≤ short.length := by
    by_contra hlt
    obtain ⟨tail, rfl⟩ := hs.exists_brace hl (by omega)
    have hbrace := hl.chars '}' (by simp)
    rw [hg] at hbrace
    exact absurd (show Text.isWord '}' = true from hbrace) (by simp [Text.isWord_brace])
  exact eq_of_length_eq hk.stands ho.stands (Nat.le_antisymm (hno ho hk) (hno hk ho))

theorem Matches.exists_prefers (h : g.Matches key text) : ∃ other, g.Prefers other text := by
  induction hn : key.length using Nat.strongRecOn generalizing key with
  | _ n ih =>
    by_cases hshorter : ∃ other, g.Matches other text ∧ other.length < n
    · obtain ⟨other, hother, hlt⟩ := hshorter
      exact ih other.length hlt hother rfl
    · refine ⟨key, h, fun _ other hother => ?_⟩
      by_contra hlt
      exact hshorter ⟨other, hother, by omega⟩

theorem Prefers.unique (hk : g.Prefers key text) (ho : g.Prefers other text) : key = other := by
  cases hg : g.keys with
  | word => exact hk.toMatches.eq_of_word hg ho.toMatches
  | line =>
    exact eq_of_length_eq hk.stands ho.stands
      (Nat.le_antisymm (hk.shortest hg _ ho.toMatches) (ho.shortest hg _ hk.toMatches))

/-- Keys of a line may have a closing brace at their front only. -/
private theorem prefers_iff_of_line (hg : g.keys = .line) :
    g.Prefers key text ↔ g.keys.Admits key ∧ g.literal key <+: text := by
  have hhas (c : Char) : g.keys.Has c ↔ c ≠ '\n' := by rw [hg]; rfl
  constructor
  · intro h
    refine ⟨?_, h.stands⟩
    obtain ⟨c, tail, rfl⟩ := List.exists_cons_of_ne_nil h.ne_nil
    rw [hg]
    refine ⟨(hhas c).mp (h.chars c List.mem_cons_self), fun d hd => ⟨?_, ?_⟩⟩
    · -- the key up to a brace behind its front would be a shorter one
      rintro rfl
      obtain ⟨front, back, rfl⟩ := List.append_of_mem hd
      have hshort : g.Matches (c :: front) text := by
        refine ⟨List.cons_ne_nil _ _, fun e he => h.chars e ?_, List.IsPrefix.trans ?_ h.stands⟩
        · rw [← List.cons_append]
          exact List.mem_append_left _ he
        · exact ⟨back ++ ['}'], by simp [literal]⟩
      have hle := h.shortest hg _ hshort
      simp only [List.length_cons, List.length_append] at hle
      omega
    · exact (hhas d).mp (h.chars d (List.mem_cons_of_mem _ hd))
  · rintro ⟨hk, hstands⟩
    rw [hg] at hk
    cases key with
    | nil => exact hk.elim
    | cons c tail =>
      have hkey : g.Matches (c :: tail) text := by
        refine ⟨List.cons_ne_nil _ _, fun d hd => (hhas d).mpr ?_, hstands⟩
        rcases List.mem_cons.mp hd with rfl | hd
        · exact hk.1
        · exact (hk.2 d hd).2
      refine ⟨hkey, fun _ other hother => ?_⟩
      by_contra hlt
      obtain ⟨back, hback⟩ := hother.exists_brace hkey (by omega)
      obtain ⟨d, front, rfl⟩ := List.exists_cons_of_ne_nil hother.ne_nil
      obtain ⟨_, htail⟩ := List.cons.inj hback
      exact (hk.2 '}' (by rw [htail]; simp)).1 rfl

private theorem prefers_iff_of_word (hg : g.keys = .word) :
    g.Prefers key text ↔ g.keys.Admits key ∧ g.literal key <+: text := by
  have hadmits : g.keys.Admits key ↔ key ≠ [] ∧ ∀ c ∈ key, g.keys.Has c := by rw [hg]; rfl
  rw [hadmits]
  constructor
  · intro h
    exact ⟨⟨h.ne_nil, h.chars⟩, h.stands⟩
  · rintro ⟨⟨hne, hchars⟩, hstands⟩
    refine ⟨⟨hne, hchars, hstands⟩, fun hline => ?_⟩
    rw [hg] at hline
    cases hline

/-- The scanner reads the key that is preferred. -/
theorem key?_eq_some_iff_prefers : g.key? text = some key ↔ g.Prefers key text := by
  rw [key?_eq_some_iff]
  cases hg : g.keys with
  | word => rw [prefers_iff_of_word hg, hg]
  | line => rw [prefers_iff_of_line hg, hg]

theorem key?_eq_none_iff : g.key? text = none ↔ ¬ ∃ key, g.Matches key text := by
  rw [Option.eq_none_iff_forall_ne_some]
  constructor
  · rintro h ⟨key, hkey⟩
    obtain ⟨other, hother⟩ := hkey.exists_prefers
    exact h other (key?_eq_some_iff_prefers.mpr hother)
  · rintro h key hkey
    exact h ⟨key, (key?_eq_some_iff_prefers.mp hkey).toMatches⟩

def pattern (g : Grammar) : Pattern where
  Starts text := ∃ key, g.Matches key text
  Reads span rest := ∃ key, span = g.literal key ∧ g.Prefers key (span ++ rest)
  starts_iff := by
    intro text
    constructor
    · rintro ⟨key, hkey⟩
      obtain ⟨other, hother⟩ := hkey.exists_prefers
      obtain ⟨rest, rfl⟩ := hother.stands
      exact ⟨_, rest, rfl, other, rfl, hother⟩
    · rintro ⟨_, rest, rfl, key, rfl, hkey⟩
      exact ⟨key, hkey.toMatches⟩
  ne_nil := by
    rintro _ rest ⟨key, rfl, _⟩
    simp [literal]
  eq_of_append_eq := by
    rintro _ rest _ behind ⟨key, rfl, hkey⟩ ⟨other, rfl, hother⟩ he
    rw [hkey.unique (he ▸ hother)]

/-- Keys are found behind what is silent. -/
private theorem keysFrom_of_silent {gap : Text} (h : g.pattern.Silent gap rest) :
    g.keysFrom 0 (gap ++ rest) = g.keysFrom 0 rest := by
  induction gap with
  | nil => rfl
  | cons c gap ih =>
    obtain ⟨hc, hgap⟩ := Pattern.silent_cons_iff.mp h
    rw [List.cons_append, keysFrom_of_key?_eq_none (key?_eq_none_iff.mpr hc), ih hgap]

/-- The literals of the keys that the scanner finds are the spans of a search. -/
theorem found_of_finds {spans : Spans} (h : g.pattern.Finds text spans) :
    spans.found = (g.keysFrom 0 text).map g.literal := by
  induction h with
  | @done last hsilent =>
    have hnone := keysFrom_of_silent hsilent
    rw [List.append_nil] at hnone
    rw [hnone]
    rfl
  | @next gap span rest pieces last hsilent hreads _ ih =>
    obtain ⟨key, rfl, hkey⟩ := hreads
    rw [keysFrom_of_silent hsilent,
      keysFrom_of_key?_eq_some (key?_eq_some_iff_prefers.mpr hkey), List.drop_left, List.map_cons,
      ← ih]
    rfl

end Grammar

/-- A scan with one spelling returns the spans of a search for it, in their order, each with its
key; the escape for a dollar sign is left out. A scan for a namespace is that for each of its
spellings, in the order of the table. -/
theorem scan_finds (text : Text) (ns : Namespace) :
    (∀ g : Grammar, ∃ spans, (∀ other, g.pattern.Finds text other ↔ other = spans) ∧
      spans.text = text ∧ ∃ keys : List Text, spans.found = keys.map g.literal ∧
        g.scan text = (keys.filter g.keeps).map g.token) ∧
    scan text ns = (Grammar.table.filter fun g => g.ns = ns).flatMap fun g => g.scan text := by
  refine ⟨fun g => ?_, rfl⟩
  obtain ⟨spans, hfinds, hunique⟩ := g.pattern.existsUnique_finds text
  refine ⟨spans, fun other => ⟨hunique other, ?_⟩, hfinds.text_eq, g.keysFrom 0 text,
    Grammar.found_of_finds hfinds, rfl⟩
  rintro rfl
  exact hfinds

/-- The line ends before the first candidate does; the second key begins with a brace. -/
example : scan "$\x7benv:a\n$\x7benv:\x7db\x7d\x7d".toList .environment =
    [⟨"$\x7benv:\x7db\x7d".toList, .environment, "\x7db".toList⟩] := by decide

end Placeholders
