import LeafReader.CString

/-!
# `strtol` and `strtoul` with base 0

Blanks, a sign, a prefix that tells the base (`0x` before a hexadecimal digit, else `0`, else decimal), and
as many digits of that base as follow. `long` has 32 bits. A decimal numeral that starts with a zero is read
in base 8, which gives its decimal value only below 8.
-/

namespace LeafReader

/-- The value of a digit or letter; 36 for a byte that is neither. -/
def digitVal (b : UInt8) : ℕ :=
  if 0x30 ≤ b ∧ b ≤ 0x39 then b.toNat - 48
  else if 0x41 ≤ b ∧ b ≤ 0x5A then b.toNat - 55
  else if 0x61 ≤ b ∧ b ≤ 0x7A then b.toNat - 87
  else 36

def valueOf (base : ℕ) (ds : Bytes) : ℕ := ds.foldl (fun n b => base * n + digitVal b) 0

/-- The base that base 0 stands for, and where its digits start. -/
def baseOf (l : Bytes) : ℕ × Bytes :=
  if l.head? ≠ some 0x30 then (10, l)
  else if (l[1]? = some 0x78 ∨ l[1]? = some 0x58) ∧ l[2]?.any (digitVal · < 16) then (16, l.drop 2)
  else (8, l)

def afterSign (l : Bytes) : Bytes := if l.head? = some 0x2D ∨ l.head? = some 0x2B then l.tail else l

/-- Sign and magnitude of the number at the start of a string; `none` when no conversion can be performed. -/
def strtoMagnitude (s : Bytes) : Option (Bool × ℕ) :=
  let l := s.dropWhile isSpace
  let (base, digits) := baseOf (afterSign l)
  let ds := digits.takeWhile (digitVal · < base)
  if ds = [] then none else some (l.head? = some 0x2D, valueOf base ds)

/-- Out of range, `strtol` gives `LONG_MAX` or `LONG_MIN`. -/
def strtol (s : Bytes) : Option ℤ :=
  (strtoMagnitude s).map fun (neg, n) =>
    if neg then max (-(n : ℤ)) (-2 ^ 31) else min (n : ℤ) (2 ^ 31 - 1)

/-- Out of range, `strtoul` gives `ULONG_MAX`; a minus sign negates the result; without a number it is
zero. -/
def strtoul (s : Bytes) : UInt32 :=
  match strtoMagnitude s with
  | none => 0
  | some (neg, n) =>
    if 2 ^ 32 ≤ n then 0xFFFFFFFF
    else if neg then -UInt32.ofNat n
    else UInt32.ofNat n

/-! ### Where a number ends -/

/-- A byte that neither continues a number nor starts one. -/
structure Stops (c : UInt8) : Prop where
  notSpace : isSpace c = false
  notSign : c ≠ 0x2D ∧ c ≠ 0x2B
  notDigit : 16 ≤ digitVal c
  notX : c ≠ 0x78 ∧ c ≠ 0x58

instance (c : UInt8) : Decidable (Stops c) :=
  decidable_of_iff (isSpace c = false ∧ (c ≠ 0x2D ∧ c ≠ 0x2B) ∧ 16 ≤ digitVal c ∧ c ≠ 0x78 ∧ c ≠ 0x58)
    ⟨fun ⟨h1, h2, h3, h4⟩ => ⟨h1, h2, h3, h4⟩, fun ⟨h1, h2, h3, h4⟩ => ⟨h1, h2, h3, h4⟩⟩

theorem baseOf_append {c : UInt8} (hc : Stops c) (l t : Bytes) :
    baseOf (l ++ c :: t) = ((baseOf l).1, (baseOf l).2 ++ c :: t) := by
  have h0 : c ≠ 0x30 := by
    rintro rfl
    exact absurd hc.notDigit (by decide)
  have hd : ¬ digitVal c < 16 := Nat.not_lt.mpr hc.notDigit
  unfold baseOf
  match l with
  | [] => simp [h0]
  | [a] => by_cases ha : a = 0x30 <;> simp [ha, hc.notX]
  | [a, b] => by_cases ha : a = 0x30 <;> simp [ha, hd]
  | a :: b :: d :: l =>
    by_cases ha : a = 0x30
    · simp only [ha, List.cons_append, List.head?_cons, List.getElem?_cons_succ, List.getElem?_cons_zero,
        List.drop_succ_cons, List.drop_zero]
      split
      next h => exact absurd rfl h
      split <;> rfl
    · simp [ha]

theorem afterSign_append {c : UInt8} (hc : Stops c) (l t : Bytes) :
    afterSign (l ++ c :: t) = afterSign l ++ c :: t := by
  unfold afterSign
  cases l with
  | nil => simp [hc.notSign]
  | cons a l =>
    by_cases ha : a = 0x2D ∨ a = 0x2B <;> simp [ha]

theorem takeWhile_append_stop {p : UInt8 → Bool} {c : UInt8} (hc : p c = false) (l t : Bytes) :
    (l ++ c :: t).takeWhile p = l.takeWhile p := by
  induction l with
  | nil => simp [hc]
  | cons a l ih =>
    rw [List.cons_append, List.takeWhile_cons, List.takeWhile_cons, ih]

theorem baseOf_le (l : Bytes) : (baseOf l).1 ≤ 16 := by
  unfold baseOf
  split
  · exact Nat.le_of_ble_eq_true rfl
  · split
    · exact le_rfl
    · exact Nat.le_of_ble_eq_true rfl

/-- A number ends at a byte that stops it. -/
theorem strtoMagnitude_append {c : UInt8} (hc : Stops c) (s t : Bytes) :
    strtoMagnitude (s ++ c :: t) = strtoMagnitude s := by
  have hdrop : (s ++ c :: t).dropWhile isSpace = s.dropWhile isSpace ++ c :: t := by
    rw [List.dropWhile_append]
    split
    next h =>
      rw [List.isEmpty_iff.mp h, List.nil_append, List.dropWhile_cons_of_neg (by simp [hc.notSpace])]
    · rfl
  have hsign : ((s.dropWhile isSpace ++ c :: t).head? = some 0x2D) ↔
      (s.dropWhile isSpace).head? = some 0x2D := by
    cases s.dropWhile isSpace with
    | nil => simp [hc.notSign]
    | cons a l => simp
  have hstop : ∀ base ≤ 16, decide (digitVal c < base) = false := by
    intro base hb
    exact decide_eq_false (Nat.not_lt.mpr (hb.trans hc.notDigit))
  unfold strtoMagnitude
  simp only [hdrop, afterSign_append hc, baseOf_append hc]
  rw [takeWhile_append_stop (hstop _ (baseOf_le _))]
  simp only [hsign]

theorem strtol_append {c : UInt8} (hc : Stops c) (s t : Bytes) : strtol (s ++ c :: t) = strtol s := by
  unfold strtol
  rw [strtoMagnitude_append hc]

theorem strtol_cons_stop {c : UInt8} (hc : Stops c) (t : Bytes) : strtol (c :: t) = none := by
  rw [← List.nil_append (c :: t), strtol_append hc]
  rfl

/-! ### Decimal numerals -/

/-- A decimal numeral, with leading zeros or without. -/
structure IsDecimal (ds : Bytes) : Prop where
  nonempty : ds ≠ []
  digits : ds.all (digitVal · < 10) = true

instance (ds : Bytes) : Decidable (IsDecimal ds) :=
  decidable_of_iff (ds ≠ [] ∧ ds.all (digitVal · < 10) = true)
    ⟨fun h => ⟨h.1, h.2⟩, fun h => ⟨h.nonempty, h.digits⟩⟩

theorem IsDecimal.digit {ds : Bytes} (h : IsDecimal ds) : ∀ b ∈ ds, digitVal b < 10 := by
  simpa using h.digits

theorem valueOf_concat (base : ℕ) (ds : Bytes) (b : UInt8) :
    valueOf base (ds ++ [b]) = base * valueOf base ds + digitVal b := by
  unfold valueOf
  rw [List.foldl_append]
  rfl

theorem digitVal_le_valueOf {ds : Bytes} {b : UInt8} (hb : b ∈ ds) : digitVal b ≤ valueOf 10 ds := by
  induction ds using List.reverseRecOn with
  | nil => cases hb
  | append_singleton ds d ih =>
    rw [valueOf_concat]
    rcases List.mem_append.mp hb with h | h
    · have := ih h
      omega
    · rw [List.mem_singleton.mp h]
      omega

/-- The octal digits at the start of a decimal numeral, read in base 8, never exceed it, and agree with it
exactly below 8. -/
theorem octal_le_decimal (ds : Bytes) :
    valueOf 8 (ds.takeWhile (digitVal · < 8)) ≤ valueOf 10 ds ∧
      (valueOf 8 (ds.takeWhile (digitVal · < 8)) = valueOf 10 ds ↔ valueOf 10 ds < 8) := by
  induction ds using List.reverseRecOn with
  | nil => decide
  | append_singleton ds d ih =>
    rw [valueOf_concat]
    by_cases hall : ∀ b ∈ ds, digitVal b < 8
    · rw [List.takeWhile_append_of_pos (by simpa using hall)]
      rw [List.takeWhile_eq_self_iff.mpr (by simpa using hall)] at ih
      by_cases hd : digitVal d < 8
      · rw [List.takeWhile_cons_of_pos (by simpa using hd), List.takeWhile_nil, valueOf_concat]
        omega
      · rw [List.takeWhile_cons_of_neg (by simpa using hd), List.append_nil]
        omega
    · -- a digit 8 or 9 ends the octal reading and makes the decimal value 8 or more
      push Not at hall
      obtain ⟨b, hb, hb8⟩ := hall
      have hle := digitVal_le_valueOf hb
      have htake : (ds ++ [d]).takeWhile (digitVal · < 8) = ds.takeWhile (digitVal · < 8) := by
        rw [List.takeWhile_append, if_neg]
        intro hlen
        have hself := List.takeWhile_eq_self_iff.mp ((List.takeWhile_sublist _).eq_of_length hlen)
        have := hself b hb
        rw [decide_eq_true_iff] at this
        omega
      rw [htake]
      omega

theorem notSign_of_decimal {b : UInt8} (h : digitVal b < 10) :
    isSpace b = false ∧ b ≠ 0x2D ∧ b ≠ 0x2B ∧ b ≠ 0x78 ∧ b ≠ 0x58 := by
  have hlow : 0x30 ≤ b := by
    unfold digitVal at h
    split at h
    next h9 => exact h9.1
    split at h
    next hA => exact UInt8.le_trans (b := 0x41) (by decide) hA.1
    split at h
    next ha => exact UInt8.le_trans (b := 0x61) (by decide) ha.1
    · omega
  refine ⟨?_, ?_, ?_, ?_, ?_⟩
  · unfold isSpace
    have h13 : ¬ b ≤ 0x0D := fun h' => absurd (UInt8.le_trans hlow h') (by decide)
    have h32 : b ≠ 0x20 := by
      rintro rfl
      exact absurd hlow (by decide)
    simp [h13, h32]
  all_goals
    rintro rfl
    revert h
    decide

/-- What a decimal numeral is read as: base 8 after a leading zero. -/
def readDecimal (ds : Bytes) : ℕ :=
  if ds.head? = some 0x30 then valueOf 8 (ds.takeWhile (digitVal · < 8)) else valueOf 10 ds

theorem baseOf_decimal {ds : Bytes} (h : IsDecimal ds) :
    baseOf ds = (if ds.head? = some 0x30 then 8 else 10, ds) := by
  have hx : ¬ (ds[1]? = some 0x78 ∨ ds[1]? = some 0x58) := by
    rintro (h1 | h1)
    · exact (notSign_of_decimal (h.digit _ (List.mem_of_getElem? h1))).2.2.2.1 rfl
    · exact (notSign_of_decimal (h.digit _ (List.mem_of_getElem? h1))).2.2.2.2 rfl
  unfold baseOf
  by_cases h0 : ds.head? = some 0x30
  · rw [if_neg (not_not.mpr h0), if_neg (fun hx' => hx hx'.1), if_pos h0]
  · rw [if_pos h0, if_neg h0]

theorem takeWhile_decimal {ds : Bytes} (h : IsDecimal ds) :
    ds.takeWhile (digitVal · < if ds.head? = some 0x30 then 8 else 10) ≠ [] ∧
      valueOf (if ds.head? = some 0x30 then 8 else 10)
        (ds.takeWhile (digitVal · < if ds.head? = some 0x30 then 8 else 10)) = readDecimal ds := by
  unfold readDecimal
  by_cases h0 : ds.head? = some 0x30
  · simp only [if_pos h0]
    obtain ⟨a, l, rfl⟩ := List.exists_cons_of_ne_nil h.nonempty
    cases h0
    rw [List.takeWhile_cons_of_pos (by decide)]
    exact ⟨List.cons_ne_nil _ _, trivial⟩
  · simp only [if_neg h0]
    rw [List.takeWhile_eq_self_iff.mpr (by simpa using h.digits)]
    exact ⟨h.nonempty, rfl⟩

theorem strtoMagnitude_decimal {ds : Bytes} (h : IsDecimal ds) :
    strtoMagnitude ds = some (false, readDecimal ds) := by
  obtain ⟨a, l, rfl⟩ := List.exists_cons_of_ne_nil h.nonempty
  obtain ⟨hsp, hm, hp, -⟩ := notSign_of_decimal (h.digit a List.mem_cons_self)
  have hsign : afterSign (a :: l) = a :: l := by simp [afterSign, hm, hp]
  obtain ⟨hne, hval⟩ := takeWhile_decimal h
  unfold strtoMagnitude
  simp only [List.dropWhile_cons_of_neg (p := isSpace) (a := a) (l := l) (by simp [hsp]), hsign,
    baseOf_decimal h]
  rw [if_neg hne, hval]
  simp [hm]

theorem strtoMagnitude_neg {ds : Bytes} (h : IsDecimal ds) :
    strtoMagnitude (0x2D :: ds) = some (true, readDecimal ds) := by
  have hsign : afterSign (0x2D :: ds) = ds := by simp [afterSign]
  obtain ⟨hne, hval⟩ := takeWhile_decimal h
  unfold strtoMagnitude
  simp only [List.dropWhile_cons_of_neg (p := isSpace) (a := 0x2D) (l := ds) (by decide), hsign,
    baseOf_decimal h]
  rw [if_neg hne, hval]
  simp

theorem readDecimal_le (ds : Bytes) : readDecimal ds ≤ valueOf 10 ds := by
  unfold readDecimal
  split
  · exact (octal_le_decimal ds).1
  · exact le_rfl

/-- A leading zero changes what is read exactly from 8 on. -/
theorem readDecimal_eq_iff (ds : Bytes) :
    readDecimal ds = valueOf 10 ds ↔ (ds.head? = some 0x30 → valueOf 10 ds < 8) := by
  unfold readDecimal
  split
  next h =>
    rw [(octal_le_decimal ds).2]
    exact ⟨fun h8 _ => h8, fun h8 => h8 h⟩
  next h => exact ⟨fun _ h' => absurd h' h, fun _ => rfl⟩

theorem strtol_decimal {ds : Bytes} (h : IsDecimal ds) :
    strtol ds = some (min (readDecimal ds : ℤ) (2 ^ 31 - 1)) := by
  unfold strtol
  rw [strtoMagnitude_decimal h]
  rfl

theorem strtoul_decimal {ds : Bytes} (h : IsDecimal ds) :
    (strtoul ds).toNat = min (readDecimal ds) (2 ^ 32 - 1) := by
  unfold strtoul
  rw [strtoMagnitude_decimal h]
  simp only [Bool.false_eq_true, if_false]
  split
  next hbig =>
    rw [min_eq_right (by omega)]
    rfl
  next hsmall =>
    rw [min_eq_left (by omega), UInt32.toNat_ofNat', Nat.mod_eq_of_lt (by omega)]

end LeafReader
