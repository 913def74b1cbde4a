import LeafReader.Bytes
import Mathlib.Data.List.TakeWhile

/-!
# C strings

Strings that end at their first NUL, the blanks of `isspace`, and the maximal runs of a list between
separators. A string is read from a place in a memory; what lies behind the last byte of the memory counts
as a NUL.
-/

namespace LeafReader

/-- A string as C passes it: no NUL before its end. -/
structure CString where
  bytes : Bytes
  noNul : (0 : UInt8) ∉ bytes

/-- What a reader of the string that starts at `p` sees. -/
def cstr (mem : Bytes) (p : ℕ) : Bytes := (mem.drop p).takeWhile (· ≠ 0)

/-- The bytes of a string literal. -/
def ascii (s : String) : Bytes := s.toList.map Char.toUInt8

/-- `isspace`: the space and `\t`, `\n`, `\v`, `\f`, `\r`. -/
def isSpace (b : UInt8) : Bool := b = 0x20 || (0x09 ≤ b && b ≤ 0x0D)

theorem takeWhile_nul_of_not_mem {l : Bytes} (h : (0 : UInt8) ∉ l) : l.takeWhile (· ≠ 0) = l := by
  rw [List.takeWhile_eq_self_iff]
  intro b hb
  exact decide_eq_true (ne_of_mem_of_not_mem hb h)

theorem takeWhile_nul_append {l : Bytes} (h : (0 : UInt8) ∉ l) (m : Bytes) :
    (l ++ m).takeWhile (· ≠ 0) = l ++ m.takeWhile (· ≠ 0) := by
  apply List.takeWhile_append_of_pos
  intro b hb
  exact decide_eq_true (ne_of_mem_of_not_mem hb h)

theorem cstr_append (pre mem : Bytes) (k : ℕ) : cstr (pre ++ mem) (pre.length + k) = cstr mem k := by
  unfold cstr
  rw [List.drop_append, List.drop_eq_nil_of_le (Nat.le_add_right _ _), List.nil_append,
    Nat.add_sub_cancel_left]

/-! ### Runs between separators -/

section Runs

variable {α : Type*} {sep : α → Bool}

/-- The maximal runs of items that are no separators, in order. -/
def runs (sep : α → Bool) (l : List α) : List (List α) := (l.splitOnP sep).filter (!·.isEmpty)

/-- The list ends with a separator. -/
def endsIn (sep : α → Bool) (l : List α) : Bool := l.getLast?.any sep

@[simp] theorem runs_nil : runs sep [] = [] := rfl

theorem runs_cons_of_sep {a : α} (h : sep a = true) (l : List α) : runs sep (a :: l) = runs sep l := by
  unfold runs
  rw [List.splitOnP_cons_eq_if_modifyHead, if_pos h, List.filter_cons_of_neg (by simp)]

theorem runs_append_of_sep {bs : List α} (h : ∀ a ∈ bs, sep a = true) (l : List α) :
    runs sep (bs ++ l) = runs sep l := by
  induction bs with
  | nil => rfl
  | cons a bs ih =>
    rw [List.cons_append, runs_cons_of_sep (h a List.mem_cons_self),
      ih fun b hb => h b (List.mem_cons_of_mem a hb)]

/-- A run ends where the list ends or a separator stands. -/
theorem runs_append_of_run {w l : List α} (hw : w ≠ []) (hsep : ∀ a ∈ w, sep a = false)
    (hl : ∀ a ∈ l.head?, sep a = true) : runs sep (w ++ l) = w :: runs sep l := by
  cases l with
  | nil =>
    rw [List.append_nil, runs_nil]
    unfold runs
    rw [List.splitOnP_eq_singleton hsep, List.filter_cons_of_pos (by simpa using hw), List.filter_nil]
  | cons a l =>
    have ha : sep a = true := hl a rfl
    rw [runs_cons_of_sep ha]
    unfold runs
    rw [List.splitOnP_append_cons_of_forall_mem hsep a ha, List.filter_cons_of_pos (by simpa using hw)]

theorem sep_of_dropWhile {l rest : List α} (h : l.dropWhile sep = rest) :
    ∀ a ∈ rest.head?, sep a = false := by
  intro a ha
  have := List.head?_dropWhile_not sep l
  rw [h, Option.mem_def.mp ha] at this
  simpa using this

/-- Behind the separators stands a run, and behind the run a separator or nothing. -/
theorem exists_run {l rest : List α} (h : l.dropWhile sep = rest) (hne : rest ≠ []) :
    ∃ w after, rest = w ++ after ∧ rest.takeWhile (!sep ·) = w ∧ rest.dropWhile (!sep ·) = after ∧ w ≠ [] ∧
      (∀ a ∈ w, sep a = false) ∧ ∀ a ∈ after.head?, sep a = true := by
  refine ⟨_, _, List.takeWhile_append_dropWhile.symm, rfl, rfl, ?_, fun a ha => ?_, fun a ha => ?_⟩
  · obtain ⟨a, r, rfl⟩ := List.exists_cons_of_ne_nil hne
    rw [List.takeWhile_cons_of_pos (by rw [sep_of_dropWhile h a rfl]; rfl)]
    exact List.cons_ne_nil _ _
  · simpa using List.mem_takeWhile_imp ha
  · simpa using sep_of_dropWhile rfl a ha

/-- The first run is found by skipping the separators before it. -/
theorem runs_of_dropWhile {l rest : List α} (h : l.dropWhile sep = rest) (hne : rest ≠ []) :
    runs sep l = rest.takeWhile (!sep ·) :: runs sep (rest.dropWhile (!sep ·)) := by
  obtain ⟨w, after, hrest, hw, hafter, hwne, hrun, hsep⟩ := exists_run h hne
  rw [hw, hafter, ← runs_append_of_run hwne hrun hsep, ← hrest, ← h]
  conv_lhs => rw [← List.takeWhile_append_dropWhile (p := sep) (l := l)]
  exact runs_append_of_sep (fun a ha => List.mem_takeWhile_imp ha) _

theorem runs_eq_nil_iff {l : List α} : runs sep l = [] ↔ ∀ a ∈ l, sep a = true := by
  rw [← List.dropWhile_eq_nil_iff]
  constructor
  · intro h
    by_contra hne
    rw [runs_of_dropWhile rfl hne] at h
    cases h
  · intro h
    rw [List.dropWhile_eq_nil_iff] at h
    rw [← List.append_nil l, runs_append_of_sep h, runs_nil]

theorem endsIn_append {l m : List α} (hm : m ≠ []) : endsIn sep (l ++ m) = endsIn sep m := by
  unfold endsIn
  rw [List.getLast?_append_of_ne_nil l hm]

theorem endsIn_of_run {l : List α} (h : ∀ a ∈ l, sep a = false) : endsIn sep l = false := by
  unfold endsIn
  rw [Option.any_eq_false_iff_get]
  intro hs
  exact h _ (List.mem_of_getLast? (Option.some_get hs).symm)

theorem endsIn_of_sep {l : List α} (hne : l ≠ []) (h : ∀ a ∈ l, sep a = true) : endsIn sep l = true := by
  unfold endsIn
  rw [List.getLast?_eq_some_getLast hne]
  exact h _ (List.getLast_mem hne)

/-- A list ends as it does behind its first run. -/
theorem endsIn_of_dropWhile {l w after : List α} (h : l.dropWhile sep = w ++ after) (hw : w ≠ [])
    (hrun : ∀ a ∈ w, sep a = false) : endsIn sep l = endsIn sep after := by
  rw [← List.takeWhile_append_dropWhile (p := sep) (l := l), h,
    endsIn_append (List.append_ne_nil_of_left_ne_nil hw after)]
  by_cases hafter : after = []
  · rw [hafter, List.append_nil, endsIn_of_run hrun]
    rfl
  · exact endsIn_append hafter

end Runs

end LeafReader
