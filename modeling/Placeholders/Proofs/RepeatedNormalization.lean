import Mathlib.Data.List.Infix
import Placeholders.Proofs.DrivePaths

/-! Normalizing what was normalized before. A letter at the end of a segment belongs to that drive
path and starts no other one, so a colon and a backslash behind it stay; once the separators in
front of it are slashes, the next reading lets it start. That is the only way in which a backslash
is left behind a drive letter and a colon, and a second reading leaves none. -/

namespace Placeholders
namespace PathStyle
variable {text rest : Text} {place : Place}

/-- A drive letter, a colon and a backslash in a row. -/
def Unconverted (text : Text) : Prop :=
  ∃ letter, isDriveLetter letter = true ∧ [letter, ':', '\\'] <:+: text

/-- Somewhere in the text a drive path ends in a drive letter, and a colon and a backslash come
behind it. This is not told by a search for drive paths: the path may overlap with another one. -/
def Chained (text : Text) : Prop :=
  ∃ path rest, drivePath.Reads path (':' :: '\\' :: rest) ∧
    (∃ last ∈ path.getLast?, isDriveLetter last = true) ∧ path ++ ':' :: '\\' :: rest <:+ text

theorem ne_of_isDriveLetter {c d : Char} (h : isDriveLetter c = true)
    (hd : isDriveLetter d = false) : c ≠ d := by
  rintro rfl
  rw [h] at hd
  cases hd

theorem isSegmentChar_of_isDriveLetter {c : Char} (h : isDriveLetter c = true) :
    isSegmentChar c = true := by
  by_contra hno
  rw [isSegmentChar, Bool.not_eq_true, Bool.not_eq_false', List.contains_iff_mem] at hno
  have hall : ['<', '>', ':', '"', '/', '\\', '|', '?', '*', ';', '\r', '\n'].all
      (fun d => !isDriveLetter d) = true := by decide
  have hc := List.all_eq_true.mp hall c hno
  simp [h] at hc

theorem isSegmentChar_backslash : isSegmentChar '\\' = false := by decide

theorem unconverted_cons_iff {c : Char} :
    Unconverted (c :: text) ↔
      isDriveLetter c = true ∧ [c, ':', '\\'] <+: c :: text ∨ Unconverted text := by
  constructor
  · rintro ⟨letter, hletter, hin⟩
    rcases List.infix_cons_iff.mp hin with hp | hin
    · obtain rfl := (List.cons_prefix_cons.mp hp).1
      exact .inl ⟨hletter, hp⟩
    · exact .inr ⟨letter, hletter, hin⟩
  · rintro (⟨hletter, hp⟩ | ⟨letter, hletter, hin⟩)
    · exact ⟨c, hletter, hp.isInfix⟩
    · exact ⟨letter, hletter, List.infix_cons hin⟩

theorem Unconverted.mono {other : Text} (h : Unconverted text) (hin : text <:+: other) :
    Unconverted other := by
  obtain ⟨letter, hletter, htext⟩ := h
  exact ⟨letter, hletter, htext.trans hin⟩

namespace Place

def divides : Place → Bool
  | .root | .segment => true
  | _ => false

def within : Place → Bool
  | .separator | .segment => true
  | _ => false

/-- A colon is due only where one comes. -/
def Fits (place : Place) (text : Text) : Prop := place = .colon → text.head? = some ':'

theorem fits_outside (text : Text) : Place.outside.Fits text := nofun

theorem fits_start (c : Char) (rest : Text) : (start c rest).Fits rest := by
  intro h
  by_contra hno
  simp [start, hno] at h

theorem within_start (c : Char) (rest : Text) : (start c rest).within = false := by
  rw [start]
  split <;> rfl

/-- Behind any character the place fits what comes next. -/
theorem fits_step (place : Place) (c : Char) (rest : Text) : (place.step c rest).2.Fits rest := by
  intro h
  have hstart : start c rest = .colon := by
    cases place <;> grind [step]
  exact fits_start c rest hstart

/-- Only separators are rewritten. -/
theorem fst_step (place : Place) (c : Char) (rest : Text) :
    (place.step c rest).1 = if place.divides = true ∧ c = '\\' then '/' else c := by
  cases place <;> grind [step, divides, isSegmentChar_backslash]

theorem eq_fst_step_iff {d : Char} (hd : d ≠ '/') (place : Place) (c : Char) (rest : Text) :
    d = (place.step c rest).1 ↔ d = c ∧ (d = '\\' → place.divides = false) := by
  rw [fst_step]
  split
  · next h =>
    refine iff_of_false hd ?_
    rintro ⟨rfl, hno⟩
    rw [hno h.2] at h
    cases h.1
  · next h =>
    rw [not_and', Bool.not_eq_true] at h
    exact ⟨fun he => ⟨he, fun hb => h (he ▸ hb)⟩, And.left⟩

/-- Separators lead into a drive path, and its segments go on there. -/
theorem within_step_iff (place : Place) (c : Char) (rest : Text) :
    (place.step c rest).2.within = true ↔
      place.divides = true ∧ c = '\\' ∨ place.within = true ∧ isSegmentChar c = true := by
  have hstart := within_start c rest
  cases place <;> grind [step, divides, within, isSegmentChar_backslash]

/-- Of two readings, the second of what comes out of the first, only one is in a drive path. -/
theorem within_step_of_within {first second : Place}
    (h : first.within = true → second.within = false) (c : Char) (rest other : Text)
    (hfirst : (first.step c rest).2.within = true) :
    (second.step (first.step c rest).1 other).2.within = false := by
  rw [Bool.eq_false_iff]
  intro hsecond
  rw [within_step_iff, fst_step] at hsecond
  rcases (within_step_iff first c rest).mp hfirst with ⟨hd, rfl⟩ | ⟨hw, hsegment⟩
  · -- the slash that comes out ends every drive path of the second reading
    rw [if_pos ⟨hd, rfl⟩] at hsecond
    rcases hsecond with ⟨_, he⟩ | ⟨_, hs⟩
    · exact absurd he (by decide)
    · exact absurd hs (by decide)
  · have hc : c ≠ '\\' := by
      rintro rfl
      exact absurd hsegment (by decide)
    rw [if_neg fun he => hc he.2] at hsecond
    rcases hsecond with ⟨_, he⟩ | ⟨hs, _⟩
    · exact hc he
    · rw [h hw] at hs
      cases hs

end Place

/-- A colon and a backslash come out where they went in, except behind the letter of a drive. -/
private theorem colon_prefix_slashesFrom_iff :
    [':', '\\'] <+: slashesFrom place text ↔ place ≠ .colon ∧ [':', '\\'] <+: text := by
  cases text with
  | nil => simp [slashesFrom]
  | cons c rest =>
    rw [slashesFrom, List.cons_prefix_cons, List.cons_prefix_cons,
      place.eq_fst_step_iff (by decide)]
    by_cases hc : ':' = c
    · subst hc
      have hbehind : (place.step ':' rest).2.divides = decide (place = .colon) := by
        cases place <;> rfl
      cases rest with
      | nil => simp [slashesFrom]
      | cons d rest =>
        rw [slashesFrom, List.cons_prefix_cons, List.cons_prefix_cons,
          Place.eq_fst_step_iff (by decide), hbehind]
        simp [and_comm]
    · simp [hc]

/-- A drive letter, a colon and a backslash come out in a row exactly where they went in and the
letter belongs to a segment. -/
theorem prefix_slashesFrom_iff {letter : Char} (hletter : isDriveLetter letter = true)
    (hf : place.Fits text) :
    [letter, ':', '\\'] <+: slashesFrom place text ↔
      place.within = true ∧ [letter, ':', '\\'] <+: text := by
  cases text with
  | nil => simp [slashesFrom]
  | cons c rest =>
    rw [slashesFrom, List.cons_prefix_cons, List.cons_prefix_cons,
      place.eq_fst_step_iff (ne_of_isDriveLetter hletter (by decide)), colon_prefix_slashesFrom_iff]
    by_cases hc : letter = c
    · subst hc
      have hsegment := isSegmentChar_of_isDriveLetter hletter
      have hbackslash := ne_of_isDriveLetter hletter (d := '\\') (by decide)
      have hcolon : place ≠ .colon := by
        rintro rfl
        exact ne_of_isDriveLetter hletter (by decide) (Option.some.inj (hf rfl))
      -- outside of drive paths the letter would start one
      have hbehind (hp : [':', '\\'] <+: rest) :
          (place.step letter rest).2 ≠ .colon ↔ place.within = true := by
        have hstart : Place.start letter rest = .colon := by
          obtain ⟨_, rfl⟩ := hp
          simp [Place.start, hletter]
        cases place <;> grind [Place.step, Place.within]
      constructor
      · rintro ⟨_, hne, hp⟩
        exact ⟨(hbehind hp).mp hne, rfl, hp⟩
      · rintro ⟨hw, _, hp⟩
        exact ⟨⟨rfl, fun hb => absurd hb hbackslash⟩, (hbehind hp).mpr hw, hp⟩
    · simp [hc]

/-- What is left by one reading is taken by the other, if the two do not start within a drive path
both. -/
theorem not_unconverted_slashesFrom {first second : Place} (hf : first.Fits text)
    (hs : second.Fits (slashesFrom first text))
    (hw : first.within = true → second.within = false) :
    ¬ Unconverted (slashesFrom second (slashesFrom first text)) := by
  induction text generalizing first second with
  | nil =>
    rintro ⟨letter, _, hin⟩
    exact absurd hin (by simp [slashesFrom])
  | cons c text ih =>
    intro h
    rcases unconverted_cons_iff.mp h with ⟨hletter, hp⟩ | hlater
    · -- a letter that both leave stands in a segment for both
      obtain ⟨hsecond, hin⟩ := (prefix_slashesFrom_iff hletter hs).mp hp
      obtain ⟨hfirst, _⟩ := (prefix_slashesFrom_iff hletter hf).mp hin
      rw [hw hfirst] at hsecond
      cases hsecond
    · exact ih (first.fits_step c text) (second.fits_step _ _)
        (Place.within_step_of_within hw c text _) hlater

/-- What is read again has nothing left. -/
theorem not_unconverted_slashes_slashes (text : Text) : ¬ Unconverted (slashes (slashes text)) :=
  not_unconverted_slashesFrom (Place.fits_outside _) (Place.fits_outside _) nofun

theorem Tail.eq_nil_or_cons {tail : Text} (h : Tail tail rest) :
    tail = [] ∨ ∃ more, tail = '\\' :: more := by
  cases h with
  | segment => exact .inr ⟨_, rfl⟩
  | backslash => exact .inr ⟨_, rfl⟩
  | nothing => exact .inl rfl

/-- A text with nothing to convert stays. -/
theorem slashes_eq_self (h : ¬ Unconverted text) : slashes text = text := by
  obtain ⟨spans, hfinds⟩ := drivePath.exists_finds text
  induction hfinds with
  | done hsilent => exact slashes_of_silent hsilent
  | @next gap path rest pieces last hsilent hreads _ ih =>
    have hrest : ¬ Unconverted rest := fun hu => h (hu.mono ⟨gap ++ path, [], by simp⟩)
    rw [slashes_gap hsilent, slashes_drivePath hreads, ih hrest]
    obtain ⟨letter, tail, rfl, hletter, htail⟩ := hreads
    rcases htail.eq_nil_or_cons with rfl | ⟨more, rfl⟩
    · have hbackslash := ne_of_isDriveLetter hletter (d := '\\') (by decide)
      simp [List.replicate_succ, slash, hbackslash]
    · exact absurd ⟨letter, hletter, gap, more ++ rest, by simp⟩ h

theorem slashes_eq_self_iff : slashes text = text ↔ ¬ Unconverted text := by
  refine ⟨fun he => ?_, slashes_eq_self⟩
  have htwice := not_unconverted_slashes_slashes text
  rwa [he, he] at htwice

/-- From any place on a text is read as the end of a longer one. -/
theorem exists_suffix_slashesFrom {part : Text} (h : part <:+ text) (hf : place.Fits text) :
    ∃ later : Place, later.Fits part ∧ slashesFrom later part <:+ slashesFrom place text := by
  induction text generalizing place with
  | nil =>
    obtain rfl := List.suffix_nil.mp h
    exact ⟨place, hf, List.suffix_rfl⟩
  | cons c text ih =>
    rcases List.suffix_cons_iff.mp h with rfl | h
    · exact ⟨place, hf, List.suffix_rfl⟩
    · obtain ⟨later, hlater, hs⟩ := ih h (place.fits_step c text)
      exact ⟨later, hlater, hs.trans (List.suffix_cons _ _)⟩

theorem zipWith_slash_inside (span : Text) :
    List.zipWith slash span (List.replicate span.length true) = span.map (slash · true) := by
  induction span with
  | nil => rfl
  | cons c span ih => simp [List.replicate_succ, ih]

theorem eq_of_slash {c d : Char} (hd : d ≠ '/') (h : slash c true = d) : c = d := by
  rw [slash] at h
  split at h
  · exact absurd h.symm hd
  · exact h

/-- Outside of segments a drive letter is read alike at every place. -/
theorem slashesFrom_of_isDriveLetter {letter : Char} (hletter : isDriveLetter letter = true)
    (hf : place.Fits (letter :: rest)) (hw : place.within = false) :
    slashesFrom place (letter :: rest) = slashes (letter :: rest) := by
  refine slashesFrom_eq_slashes ?_
  rintro c rest ⟨⟩
  cases place with
  | outside => rfl
  | colon => exact absurd (Option.some.inj (hf rfl)) (ne_of_isDriveLetter hletter (by decide))
  | root => simp [Place.step, ne_of_isDriveLetter hletter (d := '\\') (by decide)]
  | separator => cases hw
  | segment => cases hw

/-- Where a drive path ends in a drive letter with a colon and a backslash behind it, either that
path is read and the letter at its end is part of it, or its own letter is part of another one. -/
theorem Chained.unconverted (h : Chained text) : Unconverted (slashes text) := by
  obtain ⟨path, rest, hreads, ⟨last, hlast, hletter⟩, hsuffix⟩ := h
  obtain ⟨place, hf, hout⟩ := exists_suffix_slashesFrom hsuffix (Place.fits_outside text)
  refine Unconverted.mono ?_ hout.isInfix
  obtain ⟨letter, tail, rfl, hl, htail⟩ := id hreads
  cases hw : place.within with
  | true =>
    refine ⟨letter, hl, ((prefix_slashesFrom_iff hl hf).mpr ⟨hw, ?_⟩).isInfix⟩
    rcases htail.eq_nil_or_cons with rfl | ⟨more, rfl⟩
    · obtain rfl : ':' = last := by simpa using hlast
      exact absurd hletter (by decide)
    · exact ⟨_, rfl⟩
  | false =>
    obtain ⟨front, hpath⟩ := List.getLast?_eq_some_iff.mp hlast
    have hbackslash := ne_of_isDriveLetter hletter (d := '\\') (by decide)
    have hmap : (letter :: ':' :: tail).map (slash · true) =
        front.map (slash · true) ++ [last] := by
      simp [hpath, slash, hbackslash]
    have hplace : slashesFrom place (letter :: ':' :: tail ++ ':' :: '\\' :: rest) =
        slashes (letter :: ':' :: tail ++ ':' :: '\\' :: rest) :=
      slashesFrom_of_isDriveLetter hl hf hw
    rw [hplace, slashes_drivePath hreads, zipWith_slash_inside, hmap]
    exact ⟨last, hletter, front.map (slash · true), slashes rest, by simp; rfl⟩

theorem Chained.of_suffix {part : Text} (h : Chained part) (hs : part <:+ text) : Chained text := by
  obtain ⟨path, rest, hreads, hlast, hpart⟩ := h
  exact ⟨path, rest, hreads, hlast, hpart.trans hs⟩

theorem Tail.colon_not_mem {tail : Text} (h : Tail tail rest) : ':' ∉ tail := by
  induction h with
  | @segment segment more rest _ hs _ _ ih =>
    have hsegment : ':' ∉ segment := fun hm => absurd (hs _ hm) (by decide)
    simp [hsegment, ih]
  | backslash => decide
  | nothing => decide

/-- Behind text without a colon what is left is left there, or the text ends in the letter. -/
theorem Unconverted.of_append {front back : Text} (hno : ':' ∉ front)
    (h : Unconverted (front ++ back)) :
    Unconverted back ∨
      (∃ last ∈ front.getLast?, isDriveLetter last = true) ∧ [':', '\\'] <+: back := by
  induction front with
  | nil => exact .inl h
  | cons c front ih =>
    obtain ⟨_, hrest⟩ := not_or.mp fun hm => hno (List.mem_cons.mpr hm)
    rcases unconverted_cons_iff.mp h with ⟨hletter, hp⟩ | h
    · have hbehind := (List.cons_prefix_cons.mp hp).2
      cases front with
      | nil => exact .inr ⟨⟨c, rfl, hletter⟩, hbehind⟩
      | cons d front =>
        obtain rfl : ':' = d := (List.cons_prefix_cons.mp hbehind).1
        exact absurd List.mem_cons_self hrest
    · refine (ih hrest h).imp_right (And.imp_left ?_)
      rintro ⟨last, hlast, hletter⟩
      exact ⟨last, by simp [List.getLast?_cons, Option.mem_def.mp hlast], hletter⟩

/-- A letter outside of segments is not the one that is left. -/
theorem Unconverted.of_cons {c : Char} (hf : place.Fits (c :: text)) (hw : place.within = false)
    (h : Unconverted (slashesFrom place (c :: text))) :
    Unconverted (slashesFrom (place.step c text).2 text) := by
  rcases unconverted_cons_iff.mp h with ⟨hletter, hp⟩ | h
  · have hwithin := ((prefix_slashesFrom_iff hletter hf).mp hp).1
    rw [hw] at hwithin
    cases hwithin
  · exact h

private theorem Unconverted.of_start {c : Char} (h : Unconverted (slashes (c :: text))) :
    Unconverted (slashesFrom (Place.start c text) text) :=
  of_cons (Place.fits_outside _) rfl h

/-- Where no drive path begins nothing is left. -/
theorem Unconverted.of_silent {gap : Text} (hsilent : drivePath.Silent gap rest)
    (h : Unconverted (slashes (gap ++ rest))) : Unconverted (slashes rest) := by
  induction gap with
  | nil => exact h
  | cons c gap ih =>
    have hgap := (Pattern.silent_cons_iff.mp hsilent).2
    have hslashes : slashes (c :: (gap ++ rest)) = c :: slashes (gap ++ rest) := by
      rw [← List.cons_append, slashes_gap hsilent, slashes_gap hgap, List.cons_append]
    have hbehind : slashesFrom (Place.start c (gap ++ rest)) (gap ++ rest) =
        slashes (gap ++ rest) := (List.cons.inj hslashes).2
    rw [List.cons_append] at h
    exact ih hgap (hbehind ▸ h.of_start)

/-- Of a drive path with what comes behind it only its last letter can be left. -/
theorem Unconverted.of_drivePath {path : Text} (hreads : drivePath.Reads path rest)
    (h : Unconverted (slashes (path ++ rest))) :
    Unconverted (slashes rest) ∨
      (∃ last ∈ path.getLast?, isDriveLetter last = true) ∧ [':', '\\'] <+: rest := by
  obtain ⟨letter, tail, rfl, hletter, htail⟩ := hreads
  have hstart : Place.start letter (':' :: (tail ++ rest)) = .colon := by
    simp [Place.start, hletter]
  have hcolon : Unconverted (slashesFrom .colon (':' :: (tail ++ rest))) := hstart ▸ of_start h
  have hroot : Unconverted (slashesFrom .root (tail ++ rest)) := hcolon.of_cons (fun _ => rfl) rfl
  rw [slashesFrom_tail htail (.inl rfl), zipWith_slash_inside] at hroot
  have hno : ':' ∉ tail.map (slash · true) := by
    intro hm
    obtain ⟨c, hc, he⟩ := List.mem_map.mp hm
    exact htail.colon_not_mem (eq_of_slash (by decide) he ▸ hc)
  refine (hroot.of_append hno).imp_right (And.imp ?_ ?_)
  · rintro ⟨last, hlast, hletter⟩
    rw [List.getLast?_map] at hlast
    obtain ⟨c, hc, he⟩ := Option.map_eq_some_iff.mp hlast
    obtain rfl := eq_of_slash (ne_of_isDriveLetter hletter (by decide)) he
    exact ⟨c, by simp [List.getLast?_cons, hc], hletter⟩
  · exact fun hp => (colon_prefix_slashesFrom_iff.mp hp).2

/-- What is left behind comes from a drive path with a letter at its end. -/
theorem Unconverted.chained (h : Unconverted (slashes text)) : Chained text := by
  obtain ⟨spans, hfinds⟩ := drivePath.exists_finds text
  induction hfinds with
  | @done last hsilent =>
    rw [← List.append_nil last] at h
    obtain ⟨letter, _, hin⟩ := h.of_silent hsilent
    exact absurd hin (by simp [slashes, slashesFrom])
  | @next gap path rest pieces last hsilent hreads _ ih =>
    rcases (h.of_silent hsilent).of_drivePath hreads with hrest | ⟨hlast, behind, rfl⟩
    · exact (ih hrest).of_suffix ⟨gap ++ path, by simp⟩
    · exact ⟨path, behind, hreads, hlast, gap, rfl⟩

/-- In the slash style a normalized value is kept when it is normalized again. In the drive-letter
style it is kept unless a drive path of the text ends in a drive letter with a colon and a backslash
behind it, and in no other texts are a drive letter, a colon and a backslash left in a row. A value
that was normalized twice is kept, and has none of them left. -/
theorem normalize_again (text : Text) :
    normalize .posix (some (normalize .posix (some text))) = normalize .posix (some text) ∧
    let once := normalize .windows (some text)
    let twice := normalize .windows (some once)
    (twice = once ↔ ¬ Chained text) ∧ (Unconverted once ↔ Chained text) ∧
      ¬ Unconverted twice ∧ normalize .windows (some twice) = twice := by
  have hleft : Unconverted (slashes text) ↔ Chained text :=
    ⟨Unconverted.chained, Chained.unconverted⟩
  have htwice := not_unconverted_slashes_slashes text
  exact ⟨rfl, slashes_eq_self_iff.trans (not_congr hleft), hleft, htwice, slashes_eq_self htwice⟩

/-- The letter that ends the segment is read as one of a drive only when the separator in front of
it is a slash already. -/
theorem normalize_chained :
    normalize .windows (some "x:\\a:\\b".toList) = "x:/a:\\b".toList ∧
      normalize .windows (some "x:/a:\\b".toList) = "x:/a:/b".toList ∧
      ¬ ∀ style text,
        normalize style (some (normalize style (some text))) = normalize style (some text) := by
  refine ⟨by decide, by decide, fun h => ?_⟩
  exact absurd (h .windows "x:\\a:\\b".toList) (by decide)

end PathStyle
end Placeholders
