/-
# Theory.Text -- trimming, and splitting at a separator

What a reader of separated text needs.  `trim` drops what is blank at both ends;
`splitSeq` cuts a text at every occurrence of a separator, from the left, and
`splitFirst` at the first occurrence of one character.

* `splitSeq_flatMap`: pieces that each end with a separator come back, if none holds
  the separator, not even with what the start of the next one adds.
* `infix_append_cons`: a separator does not run over a character it does not have,
  which is how a text built of parts is shown to hold none.
* `pieces_trim`: trimming a text first only drops blank lines of it, which a reader
  that trims every line drops anyway.
-/
import Mathlib.Data.List.DropRight
import Mathlib.Data.List.Infix

namespace PatientAccess.Theory.Text

set_option autoImplicit false

variable {α : Type*}

/-! ## Trimming -/

/-- `s` without what is blank at its ends. -/
def trim (blank : α → Bool) (s : List α) : List α := (s.dropWhile blank).rdropWhile blank

section Trim

variable {blank : α → Bool}

@[simp] theorem trim_nil : trim blank ([] : List α) = [] := rfl

theorem trim_map {β : Type*} (f : β → α) (s : List β) :
    trim blank (s.map f) = (trim (blank ∘ f) s).map f := by
  simp only [trim, List.rdropWhile, List.dropWhile_map, ← List.map_reverse]

theorem trim_append_left {b : List α} (all : ∀ c ∈ b, blank c = true) (s : List α) :
    trim blank (b ++ s) = trim blank s := by
  rw [trim, List.dropWhile_append_of_pos all, trim]

theorem trim_cons {c : α} (blankC : blank c = true) (s : List α) :
    trim blank (c :: s) = trim blank s :=
  trim_append_left (b := [c]) (by simp [blankC]) s

theorem rdropWhile_append_of_pos {b : List α} (all : ∀ c ∈ b, blank c = true) (s : List α) :
    (s ++ b).rdropWhile blank = s.rdropWhile blank := by
  have all' : ∀ c ∈ b.reverse, blank c = true := fun c h => all c (List.mem_reverse.mp h)
  rw [List.rdropWhile, List.reverse_append, List.dropWhile_append_of_pos all', List.rdropWhile]

theorem trim_append_right {b : List α} (all : ∀ c ∈ b, blank c = true) (s : List α) :
    trim blank (s ++ b) = trim blank s := by
  rw [trim, List.dropWhile_append]
  by_cases none : (s.dropWhile blank).isEmpty = true
  · have blankS : s.dropWhile blank = [] := by simpa using none
    have blankB : b.dropWhile blank = [] := by simpa using all
    rw [if_pos none, trim, blankB, blankS]
  · rw [if_neg none, rdropWhile_append_of_pos all, trim]

/-- A text that neither starts nor ends blank is its own trim. -/
theorem trim_eq_self {c d : α} {s : List α} (first : s.head? = some c) (last : s.getLast? = some d)
    (notFirst : blank c = false) (notLast : blank d = false) : trim blank s = s := by
  obtain ⟨t, rfl⟩ := List.head?_eq_some_iff.mp first
  have kept : (c :: t).dropWhile blank = c :: t := by simp [notFirst]
  rw [trim, kept, List.rdropWhile_eq_self_iff]
  intro nonempty
  have same : (c :: t).getLast nonempty = d := by
    rwa [List.getLast?_eq_some_getLast nonempty, Option.some.injEq] at last
  simp [same, notLast]

/-- A text that is not blank throughout is not trimmed away. -/
theorem trim_ne_nil {c : α} {s : List α} (member : c ∈ s) (notBlank : blank c = false) :
    trim blank s ≠ [] := by
  intro none
  rw [trim, List.rdropWhile_eq_nil_iff] at none
  rw [← List.takeWhile_append_dropWhile (p := blank) (l := s), List.mem_append] at member
  rcases member with front | rest
  · exact absurd (List.mem_takeWhile_imp front) (by simp [notBlank])
  · exact absurd (none c rest) (by simp [notBlank])

theorem rdropWhile_append_cons {c : α} (notBlank : blank c = false) (x y : List α) :
    (x ++ c :: y).rdropWhile blank = x ++ c :: y.rdropWhile blank := by
  induction y using List.reverseRecOn with
  | nil => rw [List.rdropWhile_concat_neg _ _ _ (by simp [notBlank]), List.rdropWhile_nil]
  | append_singleton y d ih =>
      have regroup : x ++ c :: (y ++ [d]) = (x ++ c :: y) ++ [d] := by simp
      by_cases blankD : blank d = true
      · rw [regroup, List.rdropWhile_concat_pos _ _ _ blankD, ih,
          List.rdropWhile_concat_pos _ _ _ blankD]
      · rw [regroup, List.rdropWhile_concat_neg _ _ _ blankD,
          List.rdropWhile_concat_neg _ _ _ blankD, regroup]

theorem trim_rdropWhile (s : List α) : trim blank (s.rdropWhile blank) = trim blank s := by
  have dropped : ∀ c ∈ s.rtakeWhile blank, blank c = true := fun c h => List.mem_rtakeWhile_imp h
  have whole : s.rdropWhile blank ++ s.rtakeWhile blank = s := List.rdropWhile_append_rtakeWhile
  conv_rhs => rw [← whole]
  rw [trim_append_right dropped]

theorem trim_trim (s : List α) : trim blank (trim blank s) = trim blank s := by
  have dropped : ∀ c ∈ s.takeWhile blank, blank c = true := fun c h => List.mem_takeWhile_imp h
  calc trim blank (trim blank s)
      = trim blank (s.dropWhile blank) := trim_rdropWhile _
    _ = trim blank (s.takeWhile blank ++ s.dropWhile blank) := (trim_append_left dropped _).symm
    _ = trim blank s := by rw [List.takeWhile_append_dropWhile]

end Trim

/-! ## Splitting at a character -/

section Split

variable [DecidableEq α]

/-- What stands before and after the first `c`, if there is one. -/
def splitFirst (c : α) (s : List α) : Option (List α × List α) :=
  if c ∈ s then some (s.takeWhile (· ≠ c), (s.dropWhile (· ≠ c)).tail) else none

theorem splitFirst_append_cons {c : α} {x : List α} (absent : c ∉ x) (y : List α) :
    splitFirst c (x ++ c :: y) = some (x, y) := by
  have before : ∀ d ∈ x, (decide (d ≠ c)) = true := by
    intro d h
    have ne : d ≠ c := fun same => absent (same ▸ h)
    simp [ne]
  rw [splitFirst, if_pos (by simp), List.takeWhile_append_of_pos before,
    List.dropWhile_append_of_pos before]
  simp

/-- The pieces between the `c`s, trimmed, without the blank ones. -/
def pieces (blank : α → Bool) (c : α) (s : List α) : List (List α) :=
  ((s.splitOn c).map (trim blank)).filter (· ≠ [])

variable {blank : α → Bool} {c : α}

theorem pieces_nil : pieces blank c [] = [] := by simp [pieces]

theorem pieces_append_cons (x y : List α) :
    pieces blank c (x ++ c :: y) = pieces blank c x ++ pieces blank c y := by
  rw [pieces, List.splitOn_append_cons_self, List.map_append, List.filter_append, pieces, pieces]

theorem pieces_of_not_mem {s : List α} (absent : c ∉ s) :
    pieces blank c s = [trim blank s].filter (· ≠ []) := by
  rw [pieces, List.splitOn_eq_singleton absent, List.map_singleton]

theorem pieces_cons {d : α} (blankD : blank d = true) (s : List α) :
    pieces blank c (d :: s) = pieces blank c s := by
  by_cases same : d = c
  · subst same
    have split : pieces blank d ([] ++ d :: s) = pieces blank d [] ++ pieces blank d s :=
      pieces_append_cons [] s
    rwa [pieces_nil, List.nil_append, List.nil_append] at split
  · by_cases present : c ∈ s
    · obtain ⟨x, y, rfl, absent⟩ := List.eq_append_cons_of_mem present
      have absentD : c ∉ d :: x := by simp [absent, Ne.symm same]
      rw [← List.cons_append, pieces_append_cons, pieces_append_cons, pieces_of_not_mem absentD,
        pieces_of_not_mem absent, trim_cons blankD]
    · have absentD : c ∉ d :: s := by simp [present, Ne.symm same]
      rw [pieces_of_not_mem absentD, pieces_of_not_mem present, trim_cons blankD]

theorem pieces_concat {d : α} (blankD : blank d = true) (s : List α) :
    pieces blank c (s ++ [d]) = pieces blank c s := by
  by_cases same : d = c
  · subst same
    rw [pieces_append_cons, pieces_nil, List.append_nil]
  · have one : ∀ e ∈ [d], blank e = true := by simp [blankD]
    by_cases present : c ∈ s.reverse
    · -- the last separator: what follows it is the last line
      obtain ⟨y, x, split, absent⟩ := List.eq_append_cons_of_mem present
      have last : s = x.reverse ++ c :: y.reverse := by
        rw [← List.reverse_reverse s, split]
        simp
      have absentY : c ∉ y.reverse := fun h => absent (List.mem_reverse.mp h)
      have absentD : c ∉ y.reverse ++ [d] := by simp [absent, Ne.symm same]
      rw [last, List.append_assoc, List.cons_append, pieces_append_cons, pieces_append_cons,
        pieces_of_not_mem absentD, pieces_of_not_mem absentY, trim_append_right one]
    · have absentS : c ∉ s := fun h => present (List.mem_reverse.mpr h)
      have absentD : c ∉ s ++ [d] := by simp [absentS, Ne.symm same]
      rw [pieces_of_not_mem absentD, pieces_of_not_mem absentS, trim_append_right one]

theorem pieces_append_left {b : List α} (all : ∀ d ∈ b, blank d = true) (s : List α) :
    pieces blank c (b ++ s) = pieces blank c s := by
  induction b with
  | nil => rfl
  | cons d b ih =>
      rw [List.forall_mem_cons] at all
      rw [List.cons_append, pieces_cons all.1, ih all.2]

theorem pieces_append_right {b : List α} (all : ∀ d ∈ b, blank d = true) (s : List α) :
    pieces blank c (s ++ b) = pieces blank c s := by
  induction b generalizing s with
  | nil => rw [List.append_nil]
  | cons d b ih =>
      rw [List.forall_mem_cons] at all
      have regroup : s ++ d :: b = (s ++ [d]) ++ b := by simp
      rw [regroup, ih all.2, pieces_concat all.1]

/-- Trimming the text changes no piece: it only drops blank ones, and blank margins. -/
theorem pieces_trim (s : List α) : pieces blank c (trim blank s) = pieces blank c s := by
  have front : ∀ d ∈ s.takeWhile blank, blank d = true := fun d h => List.mem_takeWhile_imp h
  have back : ∀ d ∈ (s.dropWhile blank).rtakeWhile blank, blank d = true :=
    fun d h => List.mem_rtakeWhile_imp h
  calc pieces blank c (trim blank s)
      = pieces blank c (trim blank s ++ (s.dropWhile blank).rtakeWhile blank) :=
        (pieces_append_right back _).symm
    _ = pieces blank c (s.dropWhile blank) := by
        rw [trim, List.rdropWhile_append_rtakeWhile]
    _ = pieces blank c (s.takeWhile blank ++ s.dropWhile blank) :=
        (pieces_append_left front _).symm
    _ = pieces blank c s := by rw [List.takeWhile_append_dropWhile]

end Split

/-! ## Separators -/

/-- A separator does not run over a character it does not have. -/
theorem infix_append_cons {sep : List α} {c : α} (absent : c ∉ sep) (nonempty : sep ≠ [])
    (x y : List α) :
    sep <:+: x ++ c :: y ↔ sep <:+: x ∨ sep <:+: y := by
  have headOf : ∀ {t : List α}, t ≠ [] → t <+: c :: y → c ∈ t := by
    intro t some starts
    obtain ⟨d, t', rfl⟩ := List.exists_cons_of_ne_nil some
    rw [(List.cons_prefix_cons.mp starts).1]
    exact List.mem_cons_self
  constructor
  · intro here
    rcases List.infix_append_iff_ne_nil.mp here with left | right | ⟨u, v, -, some, rfl, -, starts⟩
    · exact .inl left
    · rcases List.infix_cons_iff.mp right with starts | later
      · exact absurd (headOf nonempty starts) absent
      · exact .inr later
    · exact absurd (List.mem_append_right u (headOf some starts)) absent
  · rintro (left | right)
    · exact List.infix_append_of_infix_left left
    · exact List.infix_append_of_infix_right (List.infix_cons right)

/-- `sep` does not start in `x`, even where `x` is followed by `sep`. -/
def Avoids (sep x : List α) : Prop := ¬ sep <:+: x ++ sep.dropLast

theorem Avoids.of_append {sep x y : List α} (avoids : Avoids sep (x ++ y)) : Avoids sep y := by
  intro here
  apply avoids
  rw [List.append_assoc]
  exact List.infix_append_of_infix_right here

theorem avoids_append_cons {sep : List α} {c : α} (absent : c ∉ sep) (nonempty : sep ≠ [])
    (x y : List α) : Avoids sep (x ++ c :: y) ↔ ¬ sep <:+: x ∧ Avoids sep y := by
  rw [Avoids, List.append_assoc, List.cons_append, infix_append_cons absent nonempty, not_or,
    Avoids]

theorem Avoids.append_left {sep x b : List α} (nonempty : sep ≠ []) (other : ∀ c ∈ b, c ∉ sep)
    (avoids : Avoids sep x) : Avoids sep (b ++ x) := by
  induction b with
  | nil => exact avoids
  | cons c b ih =>
      rw [List.forall_mem_cons] at other
      have none : ¬ sep <:+: ([] : List α) := fun here => nonempty (List.infix_nil.mp here)
      exact (avoids_append_cons other.1 nonempty [] (b ++ x)).mpr ⟨none, ih other.2⟩

theorem avoids_nil {sep : List α} (nonempty : sep ≠ []) : Avoids sep [] := by
  intro here
  have short := here.length_le
  have positive := List.length_pos_of_ne_nil nonempty
  simp only [List.nil_append, List.length_dropLast] at short
  omega

/-! ## Splitting at a separator -/

section Separator

variable [DecidableEq α]

/-- The pieces of `s` around the occurrences of `sep`, the first `k` characters of `s`
being the end of an occurrence. -/
def splitSeqFrom (sep : List α) : Nat → List α → List (List α)
  | _, [] => [[]]
  | k + 1, _ :: s => splitSeqFrom sep k s
  | 0, c :: s =>
      if sep.isPrefixOf (c :: s) then [] :: splitSeqFrom sep (sep.length - 1) s
      else (splitSeqFrom sep 0 s).modifyHead (c :: ·)

/-- The pieces of `s` around the occurrences of `sep`, found from the left. -/
def splitSeq (sep s : List α) : List (List α) := splitSeqFrom sep 0 s

variable {sep : List α}

theorem splitSeqFrom_append (x y : List α) :
    splitSeqFrom sep x.length (x ++ y) = splitSeqFrom sep 0 y := by
  induction x with
  | nil => rfl
  | cons c x ih => rw [List.length_cons, List.cons_append, splitSeqFrom, ih]

theorem splitSeq_append (nonempty : sep ≠ []) {x : List α} (avoids : Avoids sep x) (y : List α) :
    splitSeq sep (x ++ sep ++ y) = x :: splitSeq sep y := by
  induction x with
  | nil =>
      obtain ⟨c, sep', rfl⟩ := List.exists_cons_of_ne_nil nonempty
      have here : (c :: sep').isPrefixOf (c :: (sep' ++ y)) = true := by
        rw [List.isPrefixOf_iff_prefix]
        exact List.prefix_append (c :: sep') y
      rw [List.nil_append, List.cons_append, splitSeq, splitSeqFrom, if_pos here,
        List.length_cons, Nat.add_sub_cancel, splitSeqFrom_append, splitSeq]
  | cons c x ih =>
      -- an occurrence that starts at `c` would end before the last character of `sep`
      have notHere : sep.isPrefixOf (c :: (x ++ sep ++ y)) = false := by
        rw [← Bool.not_eq_true, List.isPrefixOf_iff_prefix]
        intro here
        have split : c :: (x ++ sep ++ y) =
            (c :: x ++ sep.dropLast) ++ ([sep.getLast nonempty] ++ y) := by
          conv_lhs => rw [← List.dropLast_concat_getLast nonempty]
          simp
        have short : sep.length ≤ (c :: x ++ sep.dropLast).length := by
          simp
          omega
        rw [split] at here
        exact avoids (List.prefix_of_prefix_length_le here (List.prefix_append _ _) short).isInfix
      have notLater : Avoids sep x := fun later => avoids (List.infix_cons later)
      have rest := ih notLater
      rw [splitSeq] at rest ⊢
      rw [List.cons_append, List.cons_append, splitSeqFrom, notHere, if_neg (by simp), rest,
        List.modifyHead_cons]

/-- Pieces that avoid the separator come back from the text in which it ends each of
them; the text after the last one is one more, empty piece. -/
theorem splitSeq_flatMap (nonempty : sep ≠ []) {ps : List (List α)}
    (avoid : ∀ p ∈ ps, Avoids sep p) : splitSeq sep (ps.flatMap (· ++ sep)) = ps ++ [[]] := by
  induction ps with
  | nil => rfl
  | cons p ps ih =>
      rw [List.forall_mem_cons] at avoid
      rw [List.flatMap_cons, splitSeq_append nonempty avoid.1, ih avoid.2, List.cons_append]

end Separator

end PatientAccess.Theory.Text
