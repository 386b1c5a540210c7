/-
# Stress.Accounts -- the accounts of the stress test, and a random pair of them

The stress test reads the accounts it asks about from a file, one a line, and draws two
of them for a question about a permission.  The second is drawn again as long as it is
the first.  What is drawn is an input: `Draw` is a value of `Math.random()`, by the
index it picks in a list of each length.

The guard before the draws counts lines; the loop compares what they say.  So the loop
can end whatever was drawn first exactly if two lines differ (`canAlwaysEnd_iff`).
-/
import PatientAccess.Log.JsonLog

namespace PatientAccess.Stress

open PatientAccess.Theory PatientAccess.Log

set_option autoImplicit false

/-! ## The file -/

/-- The lines of the file that are not blank; a file that cannot be read has none. -/
def getUserAccountsFromFile : Option (List Char) → List (List Char)
  | none => []
  | some data => (data.splitOn '\n').filter fun line => jsTrim line ≠ []

/-! ## Draws -/

/-- A value of `Math.random()`: `Math.floor(Math.random() * n)` for each length `n`. -/
structure Draw where
  index : Nat → Nat
  below : ∀ n, 0 < n → index n < n

/-- The draw of the index `k`, or of one that takes its place in a list too short. -/
def Draw.ofIndex (k : Nat) : Draw := ⟨fun n => k % n, fun _ positive => Nat.mod_lt k positive⟩

section Pick

variable (accounts : List (List Char)) (nonempty : 0 < accounts.length)

/-- `accounts[Math.floor(Math.random() * accounts.length)]`. -/
def pick (d : Draw) : List Char := accounts.get ⟨d.index accounts.length, d.below _ nonempty⟩

/-- `while (granter === grantee)`, on the draws made so far; `none` is to draw again. -/
def redraw (granter : List Char) : List Draw → Option (List Char)
  | [] => none
  | d :: ds =>
      if granter = pick accounts nonempty d then redraw granter ds
      else some (pick accounts nonempty d)

end Pick

/-- What a call has come to after some draws. -/
inductive PermissionTestData where
  | null
  | drawing
  | pair (granter grantee : List Char)

/-- The call, with the file it reads and what was drawn for it so far. -/
def generatePermissionTestData (file : Option (List Char)) (draws : List Draw) :
    PermissionTestData :=
  let accounts := getUserAccountsFromFile file
  if few : accounts.length < 2 then .null
  else
    have nonempty : 0 < accounts.length := Nat.lt_of_lt_of_le Nat.two_pos (Nat.le_of_not_lt few)
    match draws with
    | [] => .drawing
    | d :: ds =>
        let granter := pick accounts nonempty d
        match redraw accounts nonempty granter ds with
        | some grantee => .pair granter grantee
        | none => .drawing

/-! ## The loop -/

section Pick

variable {accounts : List (List Char)} (nonempty : 0 < accounts.length)

theorem pick_mem (d : Draw) : pick accounts nonempty d ∈ accounts := List.get_mem _ _

/-- The draw of an account's index draws the account. -/
theorem exists_index {account : List Char} (listed : account ∈ accounts) :
    ∃ k < accounts.length,
      ∀ d : Draw, d.index accounts.length = k → pick accounts nonempty d = account := by
  obtain ⟨⟨k, inside⟩, same⟩ := List.get_of_mem listed
  refine ⟨k, inside, fun d drawn => ?_⟩
  subst drawn
  exact same

theorem exists_draw {account : List Char} (listed : account ∈ accounts) :
    ∃ d, pick accounts nonempty d = account := by
  obtain ⟨k, inside, drawn⟩ := exists_index nonempty listed
  exact ⟨.ofIndex k, drawn _ (Nat.mod_eq_of_lt inside)⟩

theorem redraw_eq (granter : List Char) (draws : List Draw) :
    redraw accounts nonempty granter draws =
      (draws.map (pick accounts nonempty)).find? fun grantee => granter ≠ grantee := by
  induction draws with
  | nil => rfl
  | cons d ds ih =>
      rw [redraw, List.map_cons, List.find?_cons, ih]
      by_cases same : granter = pick accounts nonempty d <;> simp [same]

/-- The loop has been left once another account than the granter was drawn. -/
theorem redraw_isSome_iff (granter : List Char) (draws : List Draw) :
    (∃ grantee, redraw accounts nonempty granter draws = some grantee) ↔
      ∃ d ∈ draws, pick accounts nonempty d ≠ granter := by
  rw [← Option.isSome_iff_exists, redraw_eq, List.find?_isSome]
  simp only [List.mem_map, exists_exists_and_eq_and, decide_eq_true_eq, ne_comm]

theorem redraw_spec {granter grantee : List Char} {draws : List Draw}
    (left : redraw accounts nonempty granter draws = some grantee) :
    granter ≠ grantee ∧ grantee ∈ accounts := by
  rw [redraw_eq] at left
  have other := List.find?_some left
  obtain ⟨d, -, rfl⟩ := List.mem_map.mp (List.mem_of_find?_eq_some left)
  exact ⟨of_decide_eq_true other, pick_mem nonempty d⟩

/-- Nothing is drawn after the loop was left. -/
theorem redraw_append {granter grantee : List Char} {draws : List Draw}
    (left : redraw accounts nonempty granter draws = some grantee) (more : List Draw) :
    redraw accounts nonempty granter (draws ++ more) = some grantee := by
  rw [redraw_eq] at left ⊢
  rw [List.map_append, List.find?_append, left, Option.some_or]

end Pick

/-! ## The call -/

/-- Among the draws for a call, on a file with two lines, is another account than the
one drawn first. -/
def DrawsPair (file : Option (List Char)) (draws : List Draw) : Prop :=
  ∃ nonempty : 0 < (getUserAccountsFromFile file).length,
    2 ≤ (getUserAccountsFromFile file).length ∧
      ∃ d ds, draws = d :: ds ∧ ∃ e ∈ ds, pick _ nonempty e ≠ pick _ nonempty d

section Call

variable {file : Option (List Char)} {draws : List Draw}

theorem generate_null (few : (getUserAccountsFromFile file).length < 2) :
    generatePermissionTestData file draws = .null :=
  dif_pos few

theorem generate_cons (nonempty : 0 < (getUserAccountsFromFile file).length)
    (two : 2 ≤ (getUserAccountsFromFile file).length) (d : Draw) (ds : List Draw) :
    generatePermissionTestData file (d :: ds) =
      match redraw _ nonempty (pick _ nonempty d) ds with
      | some grantee => .pair (pick _ nonempty d) grantee
      | none => .drawing :=
  dif_neg (Nat.not_lt.mpr two)

/-- What the call returns, and what it has seen by then. -/
theorem generate_pair {granter grantee : List Char}
    (found : generatePermissionTestData file draws = .pair granter grantee) :
    ∃ nonempty : 0 < (getUserAccountsFromFile file).length,
      2 ≤ (getUserAccountsFromFile file).length ∧
        ∃ d ds, draws = d :: ds ∧ granter = pick _ nonempty d ∧
          redraw _ nonempty granter ds = some grantee := by
  by_cases few : (getUserAccountsFromFile file).length < 2
  · rw [generate_null few] at found
    cases found
  · have two := Nat.not_lt.mp few
    have nonempty : 0 < (getUserAccountsFromFile file).length := by omega
    refine ⟨nonempty, two, ?_⟩
    cases draws with
    | nil =>
        rw [generatePermissionTestData, dif_neg few] at found
        cases found
    | cons d ds =>
        rw [generate_cons nonempty two] at found
        cases left : redraw _ nonempty (pick _ nonempty d) ds with
        | none =>
            rw [left] at found
            cases found
        | some e =>
            rw [left] at found
            cases found
            exact ⟨d, ds, rfl, rfl, left⟩

theorem generate_pair_iff :
    (∃ granter grantee, generatePermissionTestData file draws = .pair granter grantee) ↔
      DrawsPair file draws := by
  constructor
  · rintro ⟨granter, grantee, found⟩
    obtain ⟨nonempty, two, d, ds, rfl, rfl, left⟩ := generate_pair found
    exact ⟨nonempty, two, d, ds, rfl, (redraw_isSome_iff nonempty _ _).mp ⟨_, left⟩⟩
  · rintro ⟨nonempty, two, d, ds, rfl, other⟩
    obtain ⟨grantee, left⟩ := (redraw_isSome_iff nonempty _ _).mpr other
    exact ⟨_, grantee, by rw [generate_cons nonempty two, left]⟩

/-- Two accounts of the file that differ. -/
theorem generate_spec {granter grantee : List Char}
    (found : generatePermissionTestData file draws = .pair granter grantee) :
    granter ≠ grantee ∧ granter ∈ getUserAccountsFromFile file ∧
      grantee ∈ getUserAccountsFromFile file := by
  obtain ⟨nonempty, -, d, ds, -, rfl, left⟩ := generate_pair found
  obtain ⟨other, listed⟩ := redraw_spec nonempty left
  exact ⟨other, pick_mem nonempty d, listed⟩

theorem generate_append {granter grantee : List Char}
    (found : generatePermissionTestData file draws = .pair granter grantee) (more : List Draw) :
    generatePermissionTestData file (draws ++ more) = .pair granter grantee := by
  obtain ⟨nonempty, two, d, ds, rfl, rfl, left⟩ := generate_pair found
  rw [List.cons_append, generate_cons nonempty two, redraw_append nonempty left]

end Call

/-! ## Whether the loop can end -/

/-- The source draws every index of a list of length `n`, sooner or later. -/
def DrawsEvery (source : Nat → Draw) (n : Nat) : Prop := ∀ i < n, ∃ k, (source k).index n = i

/-- The call comes to an end, with two accounts of the file that differ. -/
def ReturnsPair (file : Option (List Char)) (source : Nat → Draw) : Prop :=
  ∃ granter grantee, granter ≠ grantee ∧ granter ∈ getUserAccountsFromFile file ∧
    grantee ∈ getUserAccountsFromFile file ∧
      ∃ n, ∀ m ≥ n, generatePermissionTestData file ((List.range m).map source) =
        .pair granter grantee

/-- Past the guard, whatever is drawn first some draw leaves the loop, and a source that
draws every index makes the call return. -/
def CanAlwaysEnd (file : Option (List Char)) : Prop :=
  ∀ nonempty : 0 < (getUserAccountsFromFile file).length,
    2 ≤ (getUserAccountsFromFile file).length →
      (∀ d, ∃ e, pick _ nonempty e ≠ pick _ nonempty d) ∧
        ∀ source, DrawsEvery source (getUserAccountsFromFile file).length → ReturnsPair file source

/-- Two lines of the file differ. -/
def TwoDiffer (file : Option (List Char)) : Prop :=
  ∃ a ∈ getUserAccountsFromFile file, ∃ b ∈ getUserAccountsFromFile file, a ≠ b

theorem TwoDiffer.exists_ne {file : Option (List Char)} (differ : TwoDiffer file) (x : List Char) :
    ∃ a ∈ getUserAccountsFromFile file, a ≠ x := by
  obtain ⟨a, listedA, b, listedB, ne⟩ := differ
  by_cases same : a = x
  · exact ⟨b, listedB, fun h => ne (same.trans h.symm)⟩
  · exact ⟨a, listedA, same⟩

/-- Enough draws show the account that differs from the one drawn first. -/
theorem returnsPair {file : Option (List Char)} (differ : TwoDiffer file)
    (two : 2 ≤ (getUserAccountsFromFile file).length) {source : Nat → Draw}
    (every : DrawsEvery source (getUserAccountsFromFile file).length) : ReturnsPair file source := by
  have nonempty : 0 < (getUserAccountsFromFile file).length := by omega
  obtain ⟨account, listed, ne⟩ := differ.exists_ne (pick _ nonempty (source 0))
  obtain ⟨i, inside, drawn⟩ := exists_index nonempty listed
  obtain ⟨k, at_k⟩ := every i inside
  have later : k ≠ 0 := by
    rintro rfl
    exact ne (drawn _ at_k).symm
  obtain ⟨j, rfl⟩ := Nat.exists_eq_succ_of_ne_zero later
  have first : (List.range (j + 2)).map source =
      source 0 :: (List.range (j + 1)).map fun i => source (i + 1) := by
    rw [List.range_succ_eq_map, List.map_cons, List.map_map]
    rfl
  have pair : DrawsPair file ((List.range (j + 2)).map source) := by
    refine ⟨nonempty, two, _, _, first, source (j + 1), ?_, ?_⟩
    · exact List.mem_map.mpr ⟨j, List.mem_range.mpr (Nat.lt_succ_self j), rfl⟩
    · rw [drawn _ at_k]
      exact ne
  obtain ⟨granter, grantee, found⟩ := generate_pair_iff.mpr pair
  obtain ⟨other, listedGranter, listedGrantee⟩ := generate_spec found
  refine ⟨granter, grantee, other, listedGranter, listedGrantee, j + 2, fun m enough => ?_⟩
  obtain ⟨more, rfl⟩ := Nat.exists_eq_add_of_le enough
  rw [List.range_add, List.map_append]
  exact generate_append found _

/-- Where all lines are the same, the loop draws for ever. -/
theorem generate_drawing {file : Option (List Char)}
    (two : 2 ≤ (getUserAccountsFromFile file).length) (same : ¬ TwoDiffer file)
    (draws : List Draw) : generatePermissionTestData file draws = .drawing := by
  cases result : generatePermissionTestData file draws with
  | drawing => rfl
  | pair granter grantee =>
      obtain ⟨ne, listedGranter, listedGrantee⟩ := generate_spec result
      exact absurd ⟨granter, listedGranter, grantee, listedGrantee, ne⟩ same
  | null =>
      have nonempty : 0 < (getUserAccountsFromFile file).length := by omega
      cases draws with
      | nil =>
          rw [generatePermissionTestData, dif_neg (Nat.not_lt.mpr two)] at result
          cases result
      | cons d ds =>
          rw [generate_cons nonempty two] at result
          split at result <;> cases result

/-- **The redraw loop can always end** exactly if two lines of the file differ, where the
guard lets the file pass. -/
theorem canAlwaysEnd_iff (file : Option (List Char)) :
    CanAlwaysEnd file ↔ (2 ≤ (getUserAccountsFromFile file).length → TwoDiffer file) := by
  constructor
  · intro ends two
    have nonempty : 0 < (getUserAccountsFromFile file).length := by omega
    obtain ⟨e, ne⟩ := (ends nonempty two).1 (.ofIndex 0)
    exact ⟨_, pick_mem nonempty e, _, pick_mem nonempty _, ne⟩
  · intro differ nonempty two
    refine ⟨fun d => ?_, fun source every => returnsPair (differ two) two every⟩
    obtain ⟨account, listed, ne⟩ := (differ two).exists_ne (pick _ nonempty d)
    obtain ⟨e, drawn⟩ := exists_draw nonempty listed
    exact ⟨e, by rw [drawn]; exact ne⟩

/-- A file that names one account twice. -/
def oneAccountTwice : Option (List Char) := some "5Grw\n5Grw\n".toList

/-- The guard lets it pass, and no draw leaves the loop. -/
theorem repeated_account_is_drawn_for_ever :
    ¬ CanAlwaysEnd oneAccountTwice ∧
      ∀ draws, generatePermissionTestData oneAccountTwice draws = .drawing := by
  have accounts : getUserAccountsFromFile oneAccountTwice = ["5Grw".toList, "5Grw".toList] := by
    decide
  have two : 2 ≤ (getUserAccountsFromFile oneAccountTwice).length := by
    rw [accounts]
    decide
  have same : ¬ TwoDiffer oneAccountTwice := by
    rintro ⟨a, listedA, b, listedB, ne⟩
    rw [accounts] at listedA listedB
    simp_all
  refine ⟨fun ends => ?_, generate_drawing two same⟩
  have nonempty : 0 < (getUserAccountsFromFile oneAccountTwice).length := by omega
  obtain ⟨e, ne⟩ := (ends nonempty two).1 (.ofIndex 0)
  exact same ⟨_, pick_mem nonempty e, _, pick_mem nonempty _, ne⟩

end PatientAccess.Stress
