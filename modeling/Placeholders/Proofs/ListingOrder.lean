import Mathlib.Data.List.Dedup
import Mathlib.Data.List.MinMax
import Mathlib.Data.Nat.Find
import Mathlib.Data.Prod.Lex
import Placeholders.Proofs.LeftmostLongest

/-! Replacements that are kept in no particular order. Here the entries of a substitution are listed
in any order, and a text is searched from the front for the literal that is found first, the longest
one where several are; what is found is replaced and the search goes on behind it. The result is
told by the last replacement written for each literal alone: neither the writes before it nor the
order of the listing leaves a trace. -/

namespace Placeholders
namespace Text

def bytes : Text → Nat
  | [] => 0
  | c :: text => width c + bytes text

theorem bytes_append (first second : Text) :
    bytes (first ++ second) = bytes first + bytes second := by
  induction first with
  | nil => exact (Nat.zero_add _).symm
  | cons c first ih => rw [List.cons_append, bytes, bytes, ih, Nat.add_assoc]

theorem width_pos (c : Char) : 0 < width c := by
  unfold width
  split
  · exact Nat.one_pos
  · split
    · exact Nat.two_pos
    · split <;> omega

theorem bytes_pos {text : Text} (h : text ≠ []) : 0 < text.bytes := by
  cases text with
  | nil => exact absurd rfl h
  | cons c text =>
    have := width_pos c
    rw [bytes]
    omega

/-- Of two beginnings of one text the one with fewer bytes has fewer characters. -/
theorem length_le_of_bytes_le {text first second : Text} (hf : first <+: text)
    (hs : second <+: text) (h : first.bytes ≤ second.bytes) : first.length ≤ second.length := by
  by_contra hlt
  obtain ⟨more, rfl⟩ := List.prefix_of_prefix_length_le hs hf (by omega)
  rw [bytes_append] at h
  have hmore : more ≠ [] := by
    rintro rfl
    simp at hlt
  have := bytes_pos hmore
  omega

end Text

namespace Substitution

structure Hit where
  front : Text
  binding : Text × Text
  behind : Text
  deriving DecidableEq, Repr

/-- Rank of a hit: by the number of bytes in front, then by those of the literal, the most first. -/
def Hit.rank (hit : Hit) : ℕ ×ₗ ℕᵒᵈ :=
  toLex (hit.front.bytes, OrderDual.toDual hit.binding.1.bytes)

/-- The first place of each literal, for the bindings in the order in which they are listed. -/
def hits (bindings : List (Text × Text)) (text : Text) : List Hit :=
  bindings.filterMap fun binding =>
    (text.dropInfix? binding.1).map fun (front, behind) => ⟨front, binding, behind⟩

def take? (bindings : List (Text × Text)) (text : Text) : Option Hit :=
  (hits bindings text).argmin Hit.rank

/-- A search that replaces what it takes and goes on behind it until nothing is found. With an
empty literal it has no end, so no result. -/
inductive Rewrites (bindings : List (Text × Text)) : Text → Text → Prop
  | done {text : Text} : take? bindings text = none → Rewrites bindings text text
  | round {text result : Text} {hit : Hit} : take? bindings text = some hit →
      Rewrites bindings hit.behind result →
      Rewrites bindings text (hit.front ++ (hit.binding.2 ++ result))

def qualifying (listing : List (Text × Text)) : List (Text × Text) :=
  listing.filter fun (literal, replacement) => literal ≠ replacement

inductive Applies (listing : List (Text × Text)) (text : Text) : Applied → Prop
  | idle : qualifying listing = [] → Applies listing text ⟨text, false⟩
  | rewritten {result : Text} : qualifying listing ≠ [] →
      Rewrites (qualifying listing) text result → Applies listing text ⟨result, true⟩

variable {bindings : List (Text × Text)} {text : Text}

/-- A literal that stands somewhere is found, and no later than there. -/
private theorem dropInfix?_of_eq_append {literal front behind : Text}
    (h : text = front ++ literal ++ behind) :
    ∃ first rest, text.dropInfix? literal = some (first, rest) ∧ first.length ≤ front.length := by
  classical
  have hplace : ∃ n, ∃ first rest, text = first ++ literal ++ rest ∧ first.length = n :=
    ⟨_, front, behind, h, rfl⟩
  obtain ⟨first, rest, htext, hlength⟩ := Nat.find_spec hplace
  have hleast {other back : Text} (ho : text = other ++ literal ++ back) :
      first.length ≤ other.length :=
    hlength ▸ Nat.find_min' hplace ⟨other, back, ho, rfl⟩
  refine ⟨first, rest, List.dropInfix?_eq_some_iff.mpr
    ⟨⟨literal, htext, beq_self_eq_true literal⟩, fun other found back ho hfound => ?_⟩, hleast h⟩
  rw [eq_of_beq hfound] at ho
  exact hleast ho

theorem mem_hits {hit : Hit} :
    hit ∈ hits bindings text ↔
      hit.binding ∈ bindings ∧ text.dropInfix? hit.binding.1 = some (hit.front, hit.behind) := by
  simp only [hits, List.mem_filterMap, Option.map_eq_some_iff, Prod.exists]
  constructor
  · rintro ⟨literal, replacement, hm, front, behind, hfound, rfl⟩
    exact ⟨hm, hfound⟩
  · rintro ⟨hm, hfound⟩
    exact ⟨_, _, hm, _, _, hfound, rfl⟩

theorem eq_append_of_mem_hits {hit : Hit} (h : hit ∈ hits bindings text) :
    text = hit.front ++ (hit.binding.1 ++ hit.behind) := by
  obtain ⟨⟨found, htext, hfound⟩, _⟩ := List.dropInfix?_eq_some_iff.mp (mem_hits.mp h).2
  rw [htext, eq_of_beq hfound, List.append_assoc]

theorem front_prefix_of_mem_hits {hit : Hit} (h : hit ∈ hits bindings text) : hit.front <+: text :=
  eq_append_of_mem_hits h ▸ List.prefix_append _ _

/-- Where a literal of the bindings stands there is a hit for it, and no later than there. -/
private theorem exists_mem_hits {binding : Text × Text} (hm : binding ∈ bindings) {i : Nat}
    (hi : i ≤ text.length) (hp : binding.1 <+: text.drop i) :
    ∃ hit ∈ hits bindings text, hit.binding = binding ∧ hit.front.length ≤ i := by
  obtain ⟨behind, hbehind⟩ := hp
  have htext : text = text.take i ++ binding.1 ++ behind := by
    rw [List.append_assoc, hbehind, List.take_append_drop]
  obtain ⟨front, rest, hfound, hle⟩ := dropInfix?_of_eq_append htext
  refine ⟨⟨front, binding, rest⟩, mem_hits.mpr ⟨hm, hfound⟩, rfl, ?_⟩
  rwa [List.length_take_of_le hi] at hle

theorem Hit.rank_le_iff {hit other : Hit} :
    hit.rank ≤ other.rank ↔ hit.front.bytes < other.front.bytes ∨
      hit.front.bytes = other.front.bytes ∧ other.binding.1.bytes ≤ hit.binding.1.bytes := by
  simp [rank, Prod.Lex.toLex_le_toLex]

/-- The hit that is taken is the next literal, in whatever order the bindings are listed. -/
theorem next_of_take? {hit : Hit} (h : take? bindings text = some hit) :
    text = hit.front ++ (hit.binding.1 ++ hit.behind) ∧
      Next bindings hit.front hit.binding hit.behind := by
  have hmem := List.argmin_mem h
  have htext := eq_append_of_mem_hits hmem
  have hfront := front_prefix_of_mem_hits hmem
  have hleast (other : Hit) (ho : other ∈ hits bindings text) : hit.rank ≤ other.rank :=
    List.le_of_mem_argmin ho h
  have hearly (other : Hit) (ho : other ∈ hits bindings text) :
      hit.front.length ≤ other.front.length := by
    refine Text.length_le_of_bytes_le hfront (front_prefix_of_mem_hits ho) ?_
    rcases Hit.rank_le_iff.mp (hleast other ho) with hlt | ⟨heq, _⟩
    · exact hlt.le
    · exact heq.le
  refine ⟨htext, (mem_hits.mp hmem).1, fun i hi binding hm hp => ?_, fun other hm hp => ?_⟩
  · rw [← htext] at hp
    obtain ⟨found, hfound, _, hle⟩ := exists_mem_hits hm (hi.le.trans hfront.length_le) hp
    have := hearly found hfound
    omega
  · have hrest : text.drop hit.front.length = hit.binding.1 ++ hit.behind := by
      rw [htext, List.drop_left]
    obtain ⟨found, hfound, rfl, hle⟩ := exists_mem_hits hm hfront.length_le (hrest ▸ hp)
    -- both literals start at one place, so the number of their bytes decides
    have hplace : hit.front = found.front :=
      (List.prefix_of_prefix_length_le hfront (front_prefix_of_mem_hits hfound)
        (hearly found hfound)).eq_of_length_le hle
    rcases Hit.rank_le_iff.mp (hleast found hfound) with hlt | ⟨_, hbytes⟩
    · rw [hplace] at hlt
      exact absurd hlt (lt_irrefl _)
    · exact Text.length_le_of_bytes_le hp (List.prefix_append _ _) hbytes

theorem clear_of_take?_eq_none (h : take? bindings text = none) : Clear bindings text [] := by
  intro i hi binding hm hp
  rw [List.append_nil] at hp
  obtain ⟨hit, hhit, _⟩ := exists_mem_hits hm hi.le hp
  rw [List.argmin_eq_none.mp h] at hhit
  cases hhit

namespace Rewrites

/-- The literals that a search takes cut the text as the leftmost longest ones do. -/
theorem exists_cut {result : Text} (h : Rewrites bindings text result) :
    ∃ cut, LeftmostLongest bindings text cut ∧ cut.after = result := by
  induction h with
  | @done text hnone =>
    exact ⟨⟨[], text⟩, LeftmostLongest.nil_iff.mpr ⟨rfl, clear_of_take?_eq_none hnone⟩, rfl⟩
  | @round text result hit hsome _ ih =>
    obtain ⟨⟨pieces, last⟩, hcut, rfl⟩ := ih
    obtain ⟨htext, hnext⟩ := next_of_take? hsome
    refine ⟨⟨(hit.front, hit.binding) :: pieces, last⟩, LeftmostLongest.cons_iff.mpr ?_, ?_⟩
    · rw [hcut.covers]
      exact ⟨htext.symm, hnext, hcut⟩
    · simp [Cut.after]

/-- If no literal is empty a search comes to an end. -/
theorem exists_result (hne : ∀ binding ∈ bindings, binding.1 ≠ []) (text : Text) :
    ∃ result, Rewrites bindings text result := by
  induction text using (wellFounded_next hne).induction with
  | _ text ih =>
    cases h : take? bindings text with
    | none => exact ⟨text, .done h⟩
    | some hit =>
      obtain ⟨htext, hnext⟩ := next_of_take? h
      obtain ⟨result, hresult⟩ := ih hit.behind ⟨hit.front, hit.binding, hnext, htext⟩
      exact ⟨_, .round h hresult⟩

end Rewrites

/-- It matters for a cut which bindings are listed, not in which order. -/
theorem LeftmostLongest.congr {others : List (Text × Text)} {cut : Cut}
    (hsame : ∀ binding, binding ∈ others ↔ binding ∈ bindings)
    (h : LeftmostLongest bindings text cut) : LeftmostLongest others text cut := by
  have hclear {gap rest : Text} (hc : Clear bindings gap rest) : Clear others gap rest :=
    fun i hi binding hm => hc i hi binding ((hsame binding).mp hm)
  refine ⟨h.covers, fun front gap binding back he => ?_, hclear h.clear⟩
  have hnext := h.found front gap binding back he
  exact ⟨(hsame binding).mpr hnext.listed, hclear hnext.clear,
    fun other hm => hnext.longest other ((hsame other).mp hm)⟩

/-- A search through a listing of the entries that count has one result, that of a sweep. -/
theorem rewrites_iff {s : Substitution} (hne : ∀ binding ∈ s.effective, binding.1 ≠ [])
    (hlisted : bindings.Perm s.effective) {result : Text} :
    Rewrites bindings text result ↔ result = (s.apply text).result := by
  have hforward (other : Text) (h : Rewrites bindings text other) :
      other = (s.apply text).result := by
    obtain ⟨cut, hcut, rfl⟩ := h.exists_cut
    have hparts := LeftmostLongest.ofParts_partsFrom hne 0 text
    rw [(hcut.congr fun _ => hlisted.symm.mem_iff).unique (nodup_effective s) hne hparts,
      Cut.after_ofParts, result_apply]
    exact flatMap_after_parts s.effective text
  refine ⟨hforward result, ?_⟩
  rintro rfl
  obtain ⟨other, hother⟩ :=
    Rewrites.exists_result (fun binding hm => hne binding (hlisted.mem_iff.mp hm)) text
  exact hforward other hother ▸ hother

/-- In whatever order the entries are listed, applying comes to one thing. -/
theorem applies_iff_eq_apply {s : Substitution} {listing : List (Text × Text)}
    (hne : ∀ literal replacement, s.get? literal = some replacement → literal ≠ [])
    (hlisted : listing.Perm s.entries) {applied : Applied} :
    Applies listing text applied ↔ applied = s.apply text := by
  have hqualifying : (qualifying listing).Perm s.effective := hlisted.filter _
  have hliterals : ∀ binding ∈ s.effective, binding.1 ≠ [] :=
    fun binding hm => hne binding.1 binding.2 (mem_effective.mp hm).1
  by_cases hnil : s.effective = []
  · have hidle : qualifying listing = [] := (hnil ▸ hqualifying).eq_nil
    rw [apply_of_effective_eq_nil hnil]
    constructor
    · rintro (_ | ⟨hsome, _⟩)
      · rfl
      · exact absurd hidle hsome
    · rintro rfl
      exact .idle hidle
  · have hbusy : qualifying listing ≠ [] := fun h => hnil (h ▸ hqualifying).symm.eq_nil
    have hchanged : (s.apply text).changed = true := by rw [apply_of_effective_ne_nil hnil]
    constructor
    · rintro (h | ⟨_, hrewrites⟩)
      · exact absurd h hbusy
      · rw [(rewrites_iff hliterals hqualifying).mp hrewrites, ← hchanged]
    · rintro rfl
      rw [show s.apply text = ⟨(s.apply text).result, true⟩ by rw [← hchanged]]
      exact .rewritten hbusy ((rewrites_iff hliterals hqualifying).mpr rfl)

theorem get?_recordAll_empty (entries : List (Text × Text)) (literal : Text) :
    (recordAll Table.empty entries).get? literal = lastValue? entries literal :=
  Table.get?_ofList entries literal

/-- A literal is listed once, however often it was written. -/
theorem size_recordAll_empty (entries : List (Text × Text)) :
    (recordAll Table.empty entries).size = (entries.map Prod.fst).dedup.length := by
  have hkeys : (recordAll Table.empty entries).keys.Perm (entries.map Prod.fst).dedup := by
    rw [List.perm_ext_iff_of_nodup (Table.nodup_keys _) (List.nodup_dedup _)]
    intro literal
    rw [List.mem_dedup, Table.keys, List.mem_map, List.mem_map]
    constructor
    · rintro ⟨⟨_, value⟩, hm, rfl⟩
      rw [Table.mem_entries_iff, get?_recordAll_empty] at hm
      by_contra hno
      have hnone := lastValue?_eq_none_iff.mpr fun other ho => hno ⟨_, ho, rfl⟩
      rw [hnone] at hm
      cases hm
    · rintro ⟨⟨_, value⟩, hm, rfl⟩
      cases hlast : lastValue? entries _ with
      | none => exact absurd hm (lastValue?_eq_none_iff.mp hlast value)
      | some last =>
        exact ⟨(_, last), Table.mem_entries_iff.mpr (by rw [get?_recordAll_empty, hlast]), rfl⟩
  rw [← hkeys.length_eq, Table.keys, List.length_map, Table.size]

def written (history : List (Token × Text)) : List (Text × Text) :=
  history.map fun (token, replacement) => (token.literal, replacement)

/-- Two histories of writes that leave every literal with the same last replacement, or with none.
What the first leaves is told by these replacements; the second answers and counts like it; and in
whatever orders the entries of both are listed, applying them comes to the same text and flag. -/
theorem historyAndOrder_uninvolved {first second : List (Token × Text)}
    (hne : ∀ write ∈ first ++ second, write.1.literal ≠ [])
    (hsame : ∀ literal,
      lastValue? (written first) literal = lastValue? (written second) literal) :
    let s := recordAll Table.empty (written first)
    let t := recordAll Table.empty (written second)
    (∀ literal, s.get? literal = lastValue? (written first) literal ∧
      t.get? literal = s.get? literal ∧ t.contains literal = s.contains literal) ∧
    s.size = ((written first).map Prod.fst).dedup.length ∧ t.size = s.size ∧
    t.isEmpty = s.isEmpty ∧
    ∀ listing other, listing.Perm s.entries → other.Perm t.entries → ∀ text applied,
      (Applies listing text applied ↔ applied = s.apply text) ∧
      (Applies other text applied ↔ applied = s.apply text) := by
  intro s t
  have hst : t = s := Table.ext_get? fun literal => by
    rw [get?_recordAll_empty, get?_recordAll_empty, hsame]
  have hliterals : ∀ literal replacement, s.get? literal = some replacement → literal ≠ [] := by
    rintro literal replacement hget rfl
    have hlast : lastValue? (written first) [] = some replacement := by
      rw [← get?_recordAll_empty]
      exact hget
    have hnone : lastValue? (written first) [] = none := by
      refine lastValue?_eq_none_iff.mpr fun value hm => ?_
      obtain ⟨write, hwrite, he⟩ := List.mem_map.mp hm
      exact hne write (List.mem_append_left _ hwrite) (Prod.mk.inj he).1
    rw [hnone] at hlast
    cases hlast
  rw [hst]
  refine ⟨fun literal => ⟨get?_recordAll_empty _ literal, rfl, rfl⟩, size_recordAll_empty _, rfl,
    rfl, fun listing other hl ho text applied => ⟨?_, ?_⟩⟩
  · exact applies_iff_eq_apply hliterals hl
  · exact applies_iff_eq_apply hliterals ho

/-- A literal that is written twice, and one that begins another one. -/
theorem historyAndOrder_uninvolved_rewritten :
    let token (literal : String) : Token := ⟨literal.toList, .variable, []⟩
    let first := [(token "ab", "x".toList), (token "a", "b".toList), (token "ab", "aa".toList)]
    let second := [(token "ab", "aa".toList), (token "a", "b".toList)]
    let s := recordAll Table.empty (written first)
    let t := recordAll Table.empty (written second)
    ((∀ write ∈ first ++ second, write.1.literal ≠ []) ∧
      (∀ literal, lastValue? (written first) literal = lastValue? (written second) literal) ∧
      s.entries.reverse.Perm s.entries ∧ t.entries.Perm t.entries) ∧
    s.get? "ab".toList = some "aa".toList ∧ t.size = 2 ∧
    Applies s.entries.reverse "aab".toList ⟨"baa".toList, true⟩ ∧
    Applies t.entries "aab".toList ⟨"baa".toList, true⟩ := by
  intro token first second s t
  have hne : ∀ write ∈ first ++ second, write.1.literal ≠ [] := by decide
  have hst : s = t := by decide
  have hsame (literal : Text) :
      lastValue? (written first) literal = lastValue? (written second) literal := by
    rw [← get?_recordAll_empty, ← get?_recordAll_empty]
    exact congrArg (·.get? literal) hst
  have hl := List.reverse_perm s.entries
  have ho := List.Perm.refl t.entries
  obtain ⟨hanswers, hsize, hsizes, _, happly⟩ := historyAndOrder_uninvolved hne hsame
  obtain ⟨hone, hother⟩ := happly _ _ hl ho "aab".toList ⟨"baa".toList, true⟩
  exact ⟨⟨hne, hsame, hl, ho⟩, (hanswers "ab".toList).1, hsizes.trans hsize,
    hone.mpr (by decide), hother.mpr (by decide)⟩

end Substitution
end Placeholders
