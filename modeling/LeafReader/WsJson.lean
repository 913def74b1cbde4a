import LeafReader.Numerals
import LeafReader.Stretches

/-!
# The WebSocket JSON reader (`webui.c`)

`find_key` searches the message for the key between quotes and skips blanks and colons behind it;
`get_str` and `get_int` read what stands there. The search does not tell a key from a string value,
or from the punctuation between two quotes.
-/

namespace LeafReader

abbrev quote : UInt8 := 0x22

/-- `*p == ' ' || *p == ':' || *p == '\t'`. -/
def isFill (b : UInt8) : Bool := b = 0x20 || b = 0x3A || b = 0x09

/-- `char needle[32]` takes a key of 29 bytes; `snprintf` reports a longer one. -/
def findKey (json key : Bytes) : Option Bytes :=
  let needle := quote :: (key ++ [quote])
  if 32 ≤ needle.length then none
  else
    match findInfix needle json with
    | none => none
    | some p =>
      let p := (p.drop needle.length).dropWhile isFill
      if p = [] then none else some p

/-- The result and the string in `out`, which every caller has cleared. -/
def getStr (json key : Bytes) (outLen : ℕ) : Bool × Bytes :=
  match findKey json key with
  | none => (false, [])
  | some p =>
    if p.head? ≠ some quote then (false, [])
    else
      let s := p.tail
      let out := (s.takeWhile (· ≠ quote)).take (outLen - 1)
      (s[out.length]? = some quote, out)

def getInt (json key : Bytes) : Option ℤ :=
  match findKey json key with
  | none => none
  | some p => strtol p

/-! ### The documented subset -/

/-- The text of a string without escapes. -/
structure PlainText where
  bytes : Bytes
  plain : bytes.all (fun b => b ≠ quote && b ≠ 0x5C && b ≠ 0) = true
deriving DecidableEq

/-- An integer as JSON writes it. -/
structure IntLit where
  neg : Bool
  digits : Bytes
  decimal : IsDecimal digits
  noLeadingZero : digits.head? = some 0x30 → digits = [0x30]
deriving DecidableEq

namespace IntLit

variable (z : IntLit)

def text : Bytes := if z.neg then 0x2D :: z.digits else z.digits

def value : ℤ := if z.neg then -(valueOf 10 z.digits : ℤ) else valueOf 10 z.digits

end IntLit

/-- Representable in a `long` of 32 bits. -/
def InLong (n : ℤ) : Prop := -2 ^ 31 ≤ n ∧ n < 2 ^ 31

instance (n : ℤ) : Decidable (InLong n) := inferInstanceAs (Decidable (_ ∧ _))

inductive JsonVal
  | str (s : PlainText)
  | int (z : IntLit)
deriving DecidableEq

def JsonVal.text : JsonVal → Bytes
  | .str s => quote :: (s.bytes ++ [quote])
  | .int z => z.text

/-- A key and its value, with blanks before and behind the colon. -/
structure Member where
  key : PlainText
  before : Bytes
  after : Bytes
  value : JsonVal
  blanks : (before ++ after).all (fun b => b = 0x20 || b = 0x09) = true
deriving DecidableEq

namespace Member

variable (m : Member)

def colon : Bytes := m.before ++ 0x3A :: m.after

theorem mem_colon {m : Member} {b : UInt8} (h : b ∈ m.colon) : b = 0x3A ∨ b = 0x20 ∨ b = 0x09 := by
  have hblank {b : UInt8} (hb : b ∈ m.before ++ m.after) : b = 0x20 ∨ b = 0x09 := by
    simpa using List.all_eq_true.mp m.blanks b hb
  unfold colon at h
  rw [List.mem_append, List.mem_cons] at h
  rcases h with h | rfl | h
  · exact .inr (hblank (List.mem_append_left _ h))
  · exact .inl rfl
  · exact .inr (hblank (List.mem_append_right _ h))

def text : Bytes := quote :: (m.key.bytes ++ quote :: (m.colon ++ m.value.text))

end Member

/-- An object of the subset. -/
structure Message where
  members : List Member
  distinct : (members.map fun m => m.key.bytes).Nodup

namespace Message

variable (m : Message)

def text : Bytes := 0x7B :: ([0x2C].intercalate (m.members.map Member.text) ++ [0x7D])

def BindsStr (k v : Bytes) : Prop :=
  ∃ mem ∈ m.members, mem.key.bytes = k ∧ ∃ s, mem.value = .str s ∧ s.bytes = v

def BindsInt (k : Bytes) (n : ℤ) : Prop :=
  ∃ mem ∈ m.members, mem.key.bytes = k ∧ ∃ z, mem.value = .int z ∧ z.value = n

def HasKey (k : Bytes) : Prop := ∃ mem ∈ m.members, mem.key.bytes = k

/-- With a buffer that holds any part of the message, the readers give the string or the number that
the object binds to the key, and fail where it binds none. -/
def ReadsRight (k : Bytes) : Prop :=
  ∀ outLen, m.text.length < outLen →
    (∀ v, getStr m.text k outLen = (true, v) ↔ m.BindsStr k v) ∧
    (∀ n, getInt m.text k = some n ↔ m.BindsInt k n ∧ InLong n) ∧
    (¬ m.HasKey k → (getStr m.text k outLen).1 = false ∧ getInt m.text k = none)

end Message

/-! ### What stands between the quotes -/

inductive Mark
  | key | value | punct
deriving DecidableEq

/-- A stretch of the message between two quotes. -/
structure Piece where
  mark : Mark
  text : Bytes
deriving DecidableEq

/-- What a reader may take from a place of the message. -/
inductive Reading
  | str (v : Bytes)
  | int (n : ℤ)
deriving DecidableEq

/-- The stretches from a member's colon to the next quote; `sep` is what stands behind the member. -/
def Member.valuePieces (m : Member) (sep : Bytes) : List Piece :=
  match m.value with
  | .str s => [⟨.punct, m.colon⟩, ⟨.value, s.bytes⟩, ⟨.punct, sep⟩]
  | .int z => [⟨.punct, m.colon ++ (z.text ++ sep)⟩]

def sepBefore (rest : List Member) : Bytes := if rest = [] then [0x7D] else [0x2C]

def pieces : List Member → List Piece
  | [] => []
  | m :: rest => ⟨.key, m.key.bytes⟩ :: (m.valuePieces (sepBefore rest) ++ pieces rest)

/-- What stands behind a stretch: with only blanks and colons before the next quote, the string from
there to the quote that closes it, else the number that starts there. -/
def readingAt : List Piece → Option Reading
  | [] => none
  | t :: rest =>
    let s := t.text.dropWhile isFill
    if s = [] then
      match rest with
      | u :: _ :: _ => some (.str u.text)
      | _ => none
    else (strtol s).map .int

/-- What the readers take for the value of a key: what stands behind the first place between two
quotes where the key stands. A key with quotes in it is a row of stretches. -/
def found (ps : List Piece) (k : Bytes) : Option Reading :=
  (firstRun Piece.text (k.splitOn quote) ps).bind fun hit => readingAt hit.2

/-- A text that its quotes divide into the pieces; before the first quote there may be anything. -/
structure Divided (json : Bytes) (ps : List Piece) : Prop where
  text : ∃ s0, quote ∉ s0 ∧ json = s0 ++ quoted quote (ps.map Piece.text)
  plain : ∀ p ∈ ps, quote ∉ p.text

def JsonVal.reading : JsonVal → Option Reading
  | .str s => some (.str s.bytes)
  | .int z => if InLong z.value then some (.int z.value) else none

def lookup (ms : List Member) (k : Bytes) : Option JsonVal := (ms.find? (·.key.bytes = k)).map (·.value)

namespace Message

variable (m : Message)

/-- The string, or the number in range, that the object binds to the key. -/
def reading (k : Bytes) : Option Reading := (lookup m.members k).bind JsonVal.reading

/-- The first place between two quotes where the key stands. -/
def firstHit (k : Bytes) : Option (List Piece × List Piece) :=
  firstRun Piece.text (k.splitOn quote) (pieces m.members)

/-- When the readers are right about a key: it stands nowhere between quotes; it stands first as a
key, and its value is a string or a number in range; it stands first as a string value, and the
object binds it to neither; or it stands first as punctuation, and what follows there is what the
object binds it to. -/
def StandsRight (k : Bytes) : Prop :=
  match m.firstHit k with
  | none => True
  | some ([⟨.key, _⟩], _) => ∀ z, lookup m.members k = some (.int z) → InLong z.value
  | some ([⟨.value, _⟩], _) => m.reading k = none
  | some (_, behind) => readingAt behind = m.reading k

end Message

/-! ### The message as stretches -/

theorem quoted_member (m : Member) (sep : Bytes) (ps : List Piece) :
    quoted quote ((⟨.key, m.key.bytes⟩ :: (m.valuePieces sep ++ ps)).map Piece.text) =
      m.text ++ (sep ++ quoted quote (ps.map Piece.text)) := by
  unfold Member.valuePieces Member.text
  cases m.value with
  | str s => simp [JsonVal.text]
  | int z => simp [JsonVal.text]

theorem members_text {ms : List Member} (hne : ms ≠ []) :
    [0x2C].intercalate (ms.map Member.text) ++ [0x7D] = quoted quote ((pieces ms).map Piece.text) := by
  induction ms with
  | nil => exact absurd rfl hne
  | cons m rest ih =>
    rw [pieces, quoted_member]
    cases rest with
    | nil => simp [sepBefore, pieces]
    | cons m' rest =>
      rw [← ih (List.cons_ne_nil m' rest), sepBefore, if_neg (List.cons_ne_nil m' rest)]
      simp [List.intercalate]

theorem quote_notMem_intText (z : IntLit) : quote ∉ z.text := by
  have hd : quote ∉ z.digits := fun h => absurd (z.decimal.digit _ h) (by decide)
  unfold IntLit.text
  split
  · rw [List.mem_cons, not_or]
    exact ⟨by decide, hd⟩
  · exact hd

theorem PlainText.quote_notMem (s : PlainText) : quote ∉ s.bytes := by
  intro h
  have hplain := List.all_eq_true.mp s.plain _ h
  simp at hplain

theorem Member.quote_notMem_colon (m : Member) : quote ∉ m.colon := by
  intro h
  rcases mem_colon h with h | h | h <;> exact absurd h (by decide)

theorem quote_notMem_pieces (ms : List Member) : ∀ p ∈ pieces ms, quote ∉ p.text := by
  induction ms with
  | nil =>
    intro p hp
    cases hp
  | cons m rest ih =>
    have hsep : quote ∉ sepBefore rest := by
      unfold sepBefore
      split <;> decide
    have hvalue : ∀ p ∈ m.valuePieces (sepBefore rest), quote ∉ p.text := by
      unfold Member.valuePieces
      cases m.value with
      | str s => simp [m.quote_notMem_colon, s.quote_notMem, hsep]
      | int z => simp [m.quote_notMem_colon, quote_notMem_intText, hsep]
    intro p hp
    rw [pieces, List.mem_cons, List.mem_append] at hp
    rcases hp with rfl | hp | hp
    · exact m.key.quote_notMem
    · exact hvalue p hp
    · exact ih p hp

theorem Message.divided (m : Message) : Divided m.text (pieces m.members) := by
  refine ⟨⟨if m.members = [] then [0x7B, 0x7D] else [0x7B], ?_, ?_⟩, quote_notMem_pieces m.members⟩
  · split <;> decide
  · unfold Message.text
    split
    next h =>
      rw [h]
      rfl
    next h =>
      rw [members_text h]
      rfl

/-! ### What the readers find -/

/-- The message behind the needle. -/
theorem Divided.findKey_eq {json : Bytes} {ps : List Piece} (h : Divided json ps) {k : Bytes}
    (hk : k.length < 30) :
    findKey json k =
      (firstRun Piece.text (k.splitOn quote) ps).bind fun hit =>
        let p := ((quoted quote (hit.2.map Piece.text)).drop 1).dropWhile isFill
        if p = [] then none else some p := by
  have hneedle : quote :: (k ++ [quote]) = quoted quote (k.splitOn quote) ++ [quote] := by
    rw [quoted_splitOn]
    rfl
  obtain ⟨s0, hs0, rfl⟩ := h.text
  unfold findKey
  rw [if_neg (by simp; omega), findInfix_append hs0, hneedle,
    findInfix_quoted Piece.text (splitOn_notMem k) h.plain (List.splitOn_ne_nil _ _)]
  cases firstRun Piece.text (k.splitOn quote) ps with
  | none => rfl
  | some hit =>
    have hdrop (l : Bytes) : (quoted quote (k.splitOn quote) ++ l).drop
        (quoted quote (k.splitOn quote) ++ [quote]).length = l.drop 1 := by
      rw [List.length_append, List.length_singleton, List.drop_append,
        List.drop_eq_nil_of_le (Nat.le_add_right _ _), List.nil_append, Nat.add_sub_cancel_left]
    simp only [Option.map_some, Option.bind_some, hdrop]

theorem notMem_dropWhile {l : Bytes} (h : quote ∉ l) (p : UInt8 → Bool) : quote ∉ l.dropWhile p :=
  fun h' => h ((List.dropWhile_sublist p).subset h')

theorem stops_quote : Stops quote := by decide

/-- What the readers take at the pointer `p`: a string, if a quote stands there and another closes
it, or the number that starts there. -/
structure Reads (p : Bytes) (r : Option Reading) : Prop where
  str : ∀ v, (p.head? = some quote ∧ p.tail.takeWhile (· ≠ quote) = v ∧ p.tail[v.length]? = some quote) ↔
    r = some (.str v)
  int : ∀ n, strtol p = some n ↔ r = some (.int n)

theorem strtol_nil : strtol [] = none := by simp [strtol, strtoMagnitude, afterSign, baseOf]

theorem reads_nil : Reads [] none := ⟨by simp, by simp [strtol_nil]⟩

theorem Reads.unique {p : Bytes} {r r' : Option Reading} (h : Reads p r) (h' : Reads p r') : r = r' := by
  ext x
  cases x with
  | str v => exact (h.str v).symm.trans (h'.str v)
  | int n => exact (h.int n).symm.trans (h'.int n)

theorem takeWhile_quoted {x : Bytes} (hx : quote ∉ x) (xs : List Bytes) :
    (x ++ quoted quote xs).takeWhile (· ≠ quote) = x := by
  have hself : x.takeWhile (· ≠ quote) = x := by
    rw [List.takeWhile_eq_self_iff]
    intro b hb
    exact decide_eq_true (ne_of_mem_of_not_mem hb hx)
  cases xs with
  | nil => rw [quoted_nil, List.append_nil, hself]
  | cons y ys => rw [quoted_cons, takeWhile_append_stop (by simp), hself]

/-- At a quote a string is read, if another quote closes it, and no number. -/
theorem reads_quoted {t : Piece} {rest : List Piece} (ht : t.text.dropWhile isFill = [])
    (hrest : ∀ p ∈ rest, quote ∉ p.text) :
    Reads (quoted quote (rest.map Piece.text)) (readingAt (t :: rest)) := by
  match rest with
  | [] =>
    rw [show readingAt [t] = none by simp [readingAt, ht]]
    exact reads_nil
  | [u] =>
    rw [show readingAt [t, u] = none by simp [readingAt, ht]]
    have htake := takeWhile_quoted (hrest u List.mem_cons_self) []
    rw [List.map_cons, quoted_cons]
    constructor
    · intro v
      rw [List.tail_cons, List.map_nil, htake, quoted_nil, List.append_nil]
      -- the quote that should close the string is not there
      constructor
      · rintro ⟨-, rfl, hclosed⟩
        simp at hclosed
      · intro h
        cases h
    · intro n
      rw [strtol_cons_stop stops_quote]
      simp
  | u :: w :: more =>
    rw [show readingAt (t :: u :: w :: more) = some (.str u.text) by simp [readingAt, ht]]
    have htake := takeWhile_quoted (hrest u List.mem_cons_self) ((w :: more).map Piece.text)
    rw [List.map_cons, quoted_cons]
    constructor
    · intro v
      rw [List.tail_cons, htake]
      constructor
      · rintro ⟨-, rfl, -⟩
        rfl
      · intro h
        cases h
        refine ⟨rfl, rfl, ?_⟩
        rw [List.getElem?_append_right le_rfl, Nat.sub_self]
        rfl
    · intro n
      rw [strtol_cons_stop stops_quote]
      simp

/-- At another byte the number that starts there is read: the next quote ends it. -/
theorem reads_number {s : Bytes} (hs : s ≠ []) (hq : quote ∉ s) (xs : List Bytes) :
    Reads (s ++ quoted quote xs) ((strtol s).map .int) := by
  obtain ⟨c, s', rfl⟩ := List.exists_cons_of_ne_nil hs
  have hnum : strtol (c :: s' ++ quoted quote xs) = strtol (c :: s') := by
    cases xs with
    | nil => rw [quoted_nil, List.append_nil]
    | cons y ys => rw [quoted_cons, strtol_append stops_quote]
  constructor
  · intro v
    constructor
    · rintro ⟨h, -⟩
      rw [List.cons_append, List.head?_cons] at h
      exact absurd (Option.some.inj h ▸ List.mem_cons_self) hq
    · intro h
      cases hn : strtol (c :: s') with
      | none => rw [hn] at h; cases h
      | some n => rw [hn] at h; cases h
  · intro n
    rw [hnum]
    cases strtol (c :: s') with
    | none => simp
    | some n' => simp

/-- What stands at the pointer that `find_key` returns. -/
theorem reads_readingAt {t : Piece} {rest : List Piece} (ht : quote ∉ t.text)
    (hrest : ∀ p ∈ rest, quote ∉ p.text) :
    Reads (((quoted quote ((t :: rest).map Piece.text)).drop 1).dropWhile isFill)
      (readingAt (t :: rest)) := by
  rw [List.map_cons, quoted_cons, List.drop_succ_cons, List.drop_zero, List.dropWhile_append]
  by_cases hs : t.text.dropWhile isFill = []
  · have hquote : (quoted quote (rest.map Piece.text)).dropWhile isFill =
        quoted quote (rest.map Piece.text) := by
      cases rest with
      | nil => rfl
      | cons u more => rw [List.map_cons, quoted_cons, List.dropWhile_cons_of_neg (by decide)]
    simp only [hs, List.isEmpty_nil, if_true, hquote]
    exact reads_quoted hs hrest
  · simp only [List.isEmpty_iff, readingAt, if_neg hs]
    exact reads_number hs (notMem_dropWhile ht isFill) _

/-- The pointer that `find_key` returns, and what can be read there. -/
theorem Divided.findKey_reads {json : Bytes} {ps : List Piece} (h : Divided json ps) {k : Bytes}
    (hk : k.length < 30) :
    match findKey json k with
    | none => found ps k = none
    | some p => Reads p (found ps k) := by
  rw [h.findKey_eq hk, found]
  cases hhit : firstRun Piece.text (k.splitOn quote) ps with
  | none => rfl
  | some hit =>
    have hmem := firstRun_subset hhit
    obtain ⟨-, hne⟩ := firstRun_length hhit
    obtain ⟨hits, behind⟩ := hit
    obtain ⟨t, rest, rfl⟩ := List.exists_cons_of_ne_nil hne
    have hq : ∀ p ∈ t :: rest, quote ∉ p.text := fun p hp => h.plain p (hmem hp)
    have hread := reads_readingAt (hq t List.mem_cons_self) (fun p hp => hq p (List.mem_cons_of_mem t hp))
    simp only [Option.bind_some]
    generalize ((quoted quote ((t :: rest).map Piece.text)).drop 1).dropWhile isFill = p at hread ⊢
    split
    next hp =>
      -- at the end of the message nothing can be read
      split at hp
      next hnil =>
        rw [hnil] at hread
        exact hread.unique reads_nil
      · cases hp
    next p' hp =>
      split at hp
      · cases hp
      · cases hp
        exact hread

theorem length_findKey {json key p : Bytes} (h : findKey json key = some p) : p.length ≤ json.length := by
  unfold findKey at h
  simp only at h
  split at h
  · cases h
  · split at h
    · cases h
    next p' hp' =>
      split at h
      · cases h
      · cases h
        exact ((List.dropWhile_sublist _).trans (List.drop_sublist _ _)).length_le.trans
          (findInfix_suffix hp').length_le

theorem Divided.getInt_eq_some_iff {json : Bytes} {ps : List Piece} (h : Divided json ps) {k : Bytes}
    (hk : k.length < 30) (n : ℤ) : getInt json k = some n ↔ found ps k = some (.int n) := by
  have hread := h.findKey_reads hk
  unfold getInt
  split
  next hnone =>
    rw [hnone] at hread
    rw [show found ps k = none from hread]
    simp
  next p hp =>
    rw [hp] at hread
    exact hread.int n

/-- A string that fits the buffer is read whole. -/
theorem Divided.getStr_of_found {json : Bytes} {ps : List Piece} (h : Divided json ps) {k v : Bytes}
    (hk : k.length < 30) (hfound : found ps k = some (.str v)) {outLen : ℕ} (hout : v.length < outLen) :
    getStr json k outLen = (true, v) := by
  have hread := h.findKey_reads hk
  unfold getStr
  split
  next hnone =>
    rw [hnone] at hread
    rw [show found ps k = none from hread] at hfound
    cases hfound
  next p hp =>
    rw [hp] at hread
    obtain ⟨hq, htake, hclosed⟩ := (hread.str v).mpr hfound
    have hfits : v.take (outLen - 1) = v := List.take_of_length_le (by omega)
    rw [if_neg (not_not.mpr hq)]
    simp only [htake, hfits, hclosed, decide_true]

/-- What is read into a buffer larger than the message is read whole. -/
theorem Divided.found_of_getStr {json : Bytes} {ps : List Piece} (h : Divided json ps) {k v : Bytes}
    (hk : k.length < 30) {outLen : ℕ} (hout : json.length < outLen)
    (hget : getStr json k outLen = (true, v)) :
    found ps k = some (.str v) := by
  have hread := h.findKey_reads hk
  unfold getStr at hget
  split at hget
  · cases hget
  next p hp =>
    have hlen := length_findKey hp
    rw [hp] at hread
    split at hget
    · cases hget
    next hq =>
      have htake : (p.tail.takeWhile (· ≠ quote)).take (outLen - 1) = p.tail.takeWhile (· ≠ quote) := by
        apply List.take_of_length_le
        have hsub := (List.takeWhile_sublist (· ≠ quote) (l := p.tail)).length_le
        rw [List.length_tail] at hsub
        omega
      simp only [htake, Prod.mk.injEq, decide_eq_true_eq] at hget
      obtain ⟨hclosed, rfl⟩ := hget
      exact (hread.1 _).mp ⟨not_not.mp hq, rfl, hclosed⟩

theorem Divided.getStr_eq_iff {json : Bytes} {ps : List Piece} (h : Divided json ps) {k : Bytes}
    (hk : k.length < 30) {outLen : ℕ} (hout : json.length < outLen) (v : Bytes) :
    getStr json k outLen = (true, v) ↔ found ps k = some (.str v) := by
  refine ⟨h.found_of_getStr hk hout, fun hfound => ?_⟩
  apply h.getStr_of_found hk hfound
  -- the string is a part of the message
  have hread := h.findKey_reads hk
  cases hp : findKey json k with
  | none =>
    rw [hp] at hread
    rw [show found ps k = none from hread] at hfound
    cases hfound
  | some p =>
    rw [hp] at hread
    obtain ⟨-, rfl, -⟩ := (hread.str v).mpr hfound
    have hlen := length_findKey hp
    have hsub := (List.takeWhile_sublist (· ≠ quote) (l := p.tail)).length_le
    rw [List.length_tail] at hsub
    omega

/-! ### What the object binds -/

theorem lookup_eq_some_iff (m : Message) (k : Bytes) (val : JsonVal) :
    lookup m.members k = some val ↔ ∃ mem ∈ m.members, mem.key.bytes = k ∧ mem.value = val := by
  unfold lookup
  rw [Option.map_eq_some_iff]
  constructor
  · rintro ⟨mem, hfind, hval⟩
    exact ⟨mem, List.mem_of_find?_eq_some hfind, by simpa using List.find?_some hfind, hval⟩
  · rintro ⟨mem, hmem, hkey, hval⟩
    refine ⟨mem, ?_, hval⟩
    have hdistinct := m.distinct
    generalize m.members = ms at hmem hdistinct
    induction ms with
    | nil => cases hmem
    | cons a ms ih =>
      rw [List.map_cons, List.nodup_cons] at hdistinct
      rcases List.mem_cons.mp hmem with rfl | hmem
      · rw [List.find?_cons_of_pos (by simpa using hkey)]
      · rw [List.find?_cons_of_neg]
        · exact ih hmem hdistinct.2
        · have := List.mem_map_of_mem (f := fun m : Member => m.key.bytes) hmem
          rw [hkey] at this
          simpa using (ne_of_mem_of_not_mem this hdistinct.1).symm

theorem bindsStr_iff (m : Message) (k v : Bytes) : m.BindsStr k v ↔ m.reading k = some (.str v) := by
  unfold Message.reading Message.BindsStr
  rw [Option.bind_eq_some_iff]
  constructor
  · rintro ⟨mem, hmem, hkey, s, hval, rfl⟩
    exact ⟨.str s, (lookup_eq_some_iff m k _).mpr ⟨mem, hmem, hkey, hval⟩, rfl⟩
  · rintro ⟨val, hlookup, hread⟩
    obtain ⟨mem, hmem, hkey, hval⟩ := (lookup_eq_some_iff m k val).mp hlookup
    cases val with
    | str s =>
      cases hread
      exact ⟨mem, hmem, hkey, s, hval, rfl⟩
    | int z =>
      unfold JsonVal.reading at hread
      simp only at hread
      split at hread <;> cases hread

theorem bindsInt_iff (m : Message) (k : Bytes) (n : ℤ) :
    m.BindsInt k n ∧ InLong n ↔ m.reading k = some (.int n) := by
  unfold Message.reading Message.BindsInt
  rw [Option.bind_eq_some_iff]
  constructor
  · rintro ⟨⟨mem, hmem, hkey, z, hval, rfl⟩, hlong⟩
    exact ⟨.int z, (lookup_eq_some_iff m k _).mpr ⟨mem, hmem, hkey, hval⟩, if_pos hlong⟩
  · rintro ⟨val, hlookup, hread⟩
    obtain ⟨mem, hmem, hkey, hval⟩ := (lookup_eq_some_iff m k val).mp hlookup
    cases val with
    | str s => cases hread
    | int z =>
      unfold JsonVal.reading at hread
      simp only at hread
      split at hread
      next hlong =>
        cases hread
        exact ⟨⟨mem, hmem, hkey, z, hval, rfl⟩, hlong⟩
      · cases hread

theorem reading_eq_none_of_not_hasKey {m : Message} {k : Bytes} (h : ¬ m.HasKey k) :
    m.reading k = none := by
  unfold Message.reading
  cases hl : lookup m.members k with
  | none => rfl
  | some val =>
    obtain ⟨mem, hmem, hkey, -⟩ := (lookup_eq_some_iff m k val).mp hl
    exact absurd ⟨mem, hmem, hkey⟩ h

/-- The readers are right exactly if what they find is what the object binds. -/
theorem readsRight_iff_found (m : Message) {k : Bytes} (hk : k.length < 30) :
    m.ReadsRight k ↔ found (pieces m.members) k = m.reading k := by
  constructor
  · intro h
    obtain ⟨hstr, hint, -⟩ := h (m.text.length + 1) (Nat.lt_succ_self _)
    apply Option.ext
    intro r
    cases r with
    | str v => rw [← m.divided.getStr_eq_iff hk (Nat.lt_succ_self _), hstr v, bindsStr_iff]
    | int n => rw [← m.divided.getInt_eq_some_iff hk, hint n, bindsInt_iff]
  · intro h outLen hout
    refine ⟨fun v => ?_, fun n => ?_, fun hnone => ⟨?_, ?_⟩⟩
    · rw [m.divided.getStr_eq_iff hk hout, h, bindsStr_iff]
    · rw [m.divided.getInt_eq_some_iff hk, h, bindsInt_iff]
    · rw [reading_eq_none_of_not_hasKey hnone] at h
      by_contra hfound
      have := m.divided.getStr_eq_iff hk hout (getStr m.text k outLen).2
      rw [h, ← Bool.eq_true_of_not_eq_false hfound] at this
      exact absurd (this.mp rfl) (by simp)
    · rw [reading_eq_none_of_not_hasKey hnone] at h
      cases hint : getInt m.text k with
      | none => rfl
      | some n =>
        rw [m.divided.getInt_eq_some_iff hk, h] at hint
        cases hint

/-! ### Where the key stands first -/

/-- The value that the readers take from a place behind the key: an integer out of range is clamped.
-/
def JsonVal.taken : JsonVal → Reading
  | .str s => .str s.bytes
  | .int z => .int (max (-2 ^ 31) (min z.value (2 ^ 31 - 1)))

theorem reading_eq_taken_iff (val : JsonVal) :
    some val.taken = val.reading ↔ ∀ z, val = .int z → InLong z.value := by
  cases val with
  | str s => simp [JsonVal.taken, JsonVal.reading]
  | int z =>
    simp only [JsonVal.taken, JsonVal.reading]
    constructor
    · rintro h z' hz
      cases hz
      by_contra hout
      rw [if_neg hout] at h
      cases h
    · intro h
      have hz := h z rfl
      rw [if_pos hz]
      unfold InLong at hz
      congr 2
      omega

theorem strtol_intText (z : IntLit) :
    strtol z.text = some (max (-2 ^ 31) (min z.value (2 ^ 31 - 1))) := by
  have hread : readDecimal z.digits = valueOf 10 z.digits := by
    unfold readDecimal
    split
    next h =>
      rw [z.noLeadingZero h]
      decide
    · rfl
  unfold strtol IntLit.text IntLit.value
  split
  · rw [strtoMagnitude_neg z.decimal, hread, Option.map_some]
    simp only [if_true, Option.some.injEq]
    omega
  · rw [strtoMagnitude_decimal z.decimal, hread, Option.map_some]
    simp only [Bool.false_eq_true, if_false, Option.some.injEq]
    omega

theorem colon_dropWhile (m : Member) (l : Bytes) :
    (m.colon ++ l).dropWhile isFill = l.dropWhile isFill := by
  apply List.dropWhile_append_of_pos
  intro b hb
  rcases Member.mem_colon hb with rfl | rfl | rfl <;> rfl

theorem stops_sepBefore (rest : List Member) :
    ∃ c, sepBefore rest = [c] ∧ Stops c ∧ isFill c = false := by
  unfold sepBefore
  split
  · exact ⟨0x7D, rfl, by decide, rfl⟩
  · exact ⟨0x2C, rfl, by decide, rfl⟩

theorem isFill_of_decimal {b : UInt8} (h : digitVal b < 10) : isFill b = false := by
  obtain ⟨hspace, -⟩ := notSign_of_decimal h
  have h3A : b ≠ 0x3A := by
    rintro rfl
    exact absurd h (by decide)
  have h20 : b ≠ 0x20 := by
    rintro rfl
    cases hspace
  have h09 : b ≠ 0x09 := by
    rintro rfl
    cases hspace
  simp [isFill, h20, h3A, h09]

theorem intText_cons (z : IntLit) : ∃ c l, z.text = c :: l ∧ isFill c = false := by
  obtain ⟨d, l, hd⟩ := List.exists_cons_of_ne_nil z.decimal.nonempty
  unfold IntLit.text
  split
  · exact ⟨0x2D, z.digits, rfl, rfl⟩
  · exact ⟨d, l, hd, isFill_of_decimal (z.decimal.digit d (hd ▸ List.mem_cons_self))⟩

/-- Behind a key stands its value. -/
theorem readingAt_valuePieces (m : Member) (rest : List Member) :
    readingAt (m.valuePieces (sepBefore rest) ++ pieces rest) = some m.value.taken := by
  unfold Member.valuePieces
  cases m.value with
  | str s =>
    have hnil : m.colon.dropWhile isFill = [] := by
      rw [← List.append_nil m.colon, colon_dropWhile]
      rfl
    simp only [readingAt, List.cons_append, List.nil_append, hnil]
    rfl
  | int z =>
    obtain ⟨c, l, hcl, hc⟩ := intText_cons z
    obtain ⟨d, hd, hstop, -⟩ := stops_sepBefore rest
    simp only [readingAt, List.cons_append, List.nil_append, colon_dropWhile, hd]
    rw [hcl, List.cons_append, List.dropWhile_cons_of_neg (by simp [hc]), if_neg (List.cons_ne_nil _ _),
      ← List.cons_append, ← hcl, strtol_append hstop, strtol_intText]
    rfl

/-- Behind a string value stands no value. -/
theorem readingAt_sep (rest : List Member) :
    readingAt (⟨.punct, sepBefore rest⟩ :: pieces rest) = none := by
  obtain ⟨c, hc, hstop, hfill⟩ := stops_sepBefore rest
  simp only [readingAt, hc]
  rw [List.dropWhile_cons_of_neg (by simp [hfill]), if_neg (List.cons_ne_nil _ _), strtol_cons_stop hstop]
  rfl

theorem lookup_cons (m : Member) (rest : List Member) (k : Bytes) :
    lookup (m :: rest) k = if m.key.bytes = k then some m.value else lookup rest k := by
  unfold lookup
  rw [List.find?_cons]
  split
  next h => rw [if_pos (by simpa using h), Option.map_some]
  next h => rw [if_neg (by simpa using h)]

theorem firstRun_value_ne (m : Member) (rest : List Member) (k : Bytes) {hit : List Piece × List Piece}
    (h : firstRun Piece.text [k] (m.valuePieces (sepBefore rest) ++ pieces rest) = some hit) :
    (∃ x, hit.1 = [⟨.punct, x⟩]) ∨
      (∃ x, hit = ([⟨.value, x⟩], ⟨.punct, sepBefore rest⟩ :: pieces rest)) ∨
      firstRun Piece.text [k] (pieces rest) = some hit := by
  unfold Member.valuePieces at h
  cases hval : m.value with
  | str s =>
    simp only [hval, List.cons_append, List.nil_append, firstRun_singleton_cons] at h
    split at h
    · cases h
      exact .inl ⟨_, rfl⟩
    split at h
    · cases h
      exact .inr (.inl ⟨_, rfl⟩)
    split at h
    · cases h
      exact .inl ⟨_, rfl⟩
    · exact .inr (.inr h)
  | int z =>
    simp only [hval, List.cons_append, List.nil_append, firstRun_singleton_cons] at h
    split at h
    · cases h
      exact .inl ⟨_, rfl⟩
    · exact .inr (.inr h)

/-- Where the key stands first as a key, the readers take its value. -/
theorem found_of_key {ms : List Member} {k x : Bytes} {behind : List Piece}
    (h : firstRun Piece.text [k] (pieces ms) = some ([⟨.key, x⟩], behind)) :
    ∃ val, lookup ms k = some val ∧ readingAt behind = some val.taken := by
  induction ms with
  | nil => cases h
  | cons m rest ih =>
    rw [pieces, firstRun_singleton_cons] at h
    rw [lookup_cons]
    split at h
    next hkey =>
      cases h
      rw [if_pos hkey.1]
      exact ⟨m.value, rfl, readingAt_valuePieces m rest⟩
    next hkey =>
      have hne : m.valuePieces (sepBefore rest) ++ pieces rest ≠ [] := by
        unfold Member.valuePieces
        cases m.value <;> simp
      rw [if_neg fun hk => hkey ⟨hk, hne⟩]
      rcases firstRun_value_ne m rest k h with ⟨y, hy⟩ | ⟨y, hy⟩ | hrest
      · cases hy
      · cases hy
      · exact ih hrest

/-- Where the key stands first as a string value, the readers find nothing. -/
theorem found_of_value {ms : List Member} {k x : Bytes} {behind : List Piece}
    (h : firstRun Piece.text [k] (pieces ms) = some ([⟨.value, x⟩], behind)) :
    readingAt behind = none := by
  induction ms with
  | nil => cases h
  | cons m rest ih =>
    rw [pieces, firstRun_singleton_cons] at h
    split at h
    · cases h
    · rcases firstRun_value_ne m rest k h with ⟨y, hy⟩ | ⟨y, hy⟩ | hrest
      · cases hy
      · cases hy
        exact readingAt_sep rest
      · exact ih hrest

/-- A key of the object stands between quotes. -/
theorem firstRun_of_lookup {ms : List Member} {k : Bytes} {val : JsonVal} (h : lookup ms k = some val) :
    firstRun Piece.text [k] (pieces ms) ≠ none := by
  induction ms with
  | nil => cases h
  | cons m rest ih =>
    have hne : m.valuePieces (sepBefore rest) ++ pieces rest ≠ [] := by
      unfold Member.valuePieces
      cases m.value <;> simp
    rw [lookup_cons] at h
    rw [pieces, firstRun_singleton_cons]
    by_cases hkey : m.key.bytes = k
    · rw [if_pos ⟨hkey, hne⟩]
      exact Option.some_ne_none _
    · rw [if_neg hkey] at h
      rw [if_neg fun h' => hkey h'.1]
      unfold Member.valuePieces
      cases m.value <;>
        · simp only [List.cons_append, List.nil_append, firstRun_singleton_cons]
          repeat' split
          all_goals first | exact Option.some_ne_none _ | exact ih h

theorem splitOn_of_lookup {m : Message} {k : Bytes} {val : JsonVal} (h : lookup m.members k = some val) :
    k.splitOn quote = [k] := by
  obtain ⟨mem, -, rfl, -⟩ := (lookup_eq_some_iff m k val).mp h
  exact splitOn_of_notMem mem.key.quote_notMem

theorem splitOn_of_singleton {k s : Bytes} (h : k.splitOn quote = [s]) : s = k := by
  have := quoted_splitOn (q := quote) k
  rw [h, quoted_cons, quoted_nil, List.append_nil] at this
  exact (List.cons.inj this).2

/-- A hit of one stretch is a hit of the key itself. -/
theorem splitOn_of_firstHit {m : Message} {k : Bytes} {p : Piece} {behind : List Piece}
    (h : m.firstHit k = some ([p], behind)) :
    firstRun Piece.text [k] (pieces m.members) = some ([p], behind) := by
  unfold Message.firstHit at h
  obtain ⟨s, hs⟩ := List.length_eq_one_iff.mp (firstRun_length h).1.symm
  rwa [hs, splitOn_of_singleton hs] at h

/-- The readers find what the object binds exactly when the key stands right. -/
theorem found_eq_reading_iff (m : Message) (k : Bytes) :
    found (pieces m.members) k = m.reading k ↔ m.StandsRight k := by
  unfold Message.StandsRight
  change (m.firstHit k).bind _ = _ ↔ _
  cases hhit : m.firstHit k with
  | none =>
    simp only [Option.bind_none, iff_true]
    cases hl : lookup m.members k with
    | none =>
      unfold Message.reading
      rw [hl]
      rfl
    | some val =>
      unfold Message.firstHit at hhit
      rw [splitOn_of_lookup hl] at hhit
      exact absurd hhit (firstRun_of_lookup hl)
  | some hit =>
    simp only [Option.bind_some]
    split
    next hnone => cases hnone
    next x behind hsome =>
      cases hsome
      obtain ⟨val, hl, hread⟩ := found_of_key (splitOn_of_firstHit hhit)
      unfold Message.reading
      rw [hread, hl, Option.bind_some, reading_eq_taken_iff]
      simp only [Option.some.injEq]
    next x behind hsome =>
      cases hsome
      rw [found_of_value (splitOn_of_firstHit hhit), eq_comm]
    next hits behind _ _ hsome =>
      cases hsome
      rfl

/-- The readers are right about a key shorter than 30 characters exactly when it stands right. -/
theorem readsRight_iff (m : Message) (k : CString) (hk : k.bytes.length < 30) :
    m.ReadsRight k.bytes ↔ m.StandsRight k.bytes := by
  rw [readsRight_iff_found m hk, found_eq_reading_iff]

/-- `{"cmd":"enroll","id":5}`. -/
def idMessage : Message where
  members :=
    [⟨⟨[0x63, 0x6D, 0x64], by decide⟩, [], [], .str ⟨[0x65, 0x6E, 0x72, 0x6F, 0x6C, 0x6C], by decide⟩,
        by decide⟩,
      ⟨⟨[0x69, 0x64], by decide⟩, [], [], .int ⟨false, [0x35], by decide, by decide⟩, by decide⟩]
  distinct := by decide

theorem readsRight_iff_id : idMessage.ReadsRight [0x69, 0x64] :=
  (readsRight_iff idMessage ⟨[0x69, 0x64], by decide⟩ (by decide)).mpr fun z hz => by
    cases hz
    decide

/-- `{"note":"cmd","cmd":"reboot"}`: the value `cmd` is taken for the key. -/
def noteMessage : Message where
  members :=
    [⟨⟨[0x6E, 0x6F, 0x74, 0x65], by decide⟩, [], [], .str ⟨[0x63, 0x6D, 0x64], by decide⟩, by decide⟩,
      ⟨⟨[0x63, 0x6D, 0x64], by decide⟩, [], [], .str ⟨[0x72, 0x65, 0x62, 0x6F, 0x6F, 0x74], by decide⟩,
        by decide⟩]
  distinct := by decide

theorem not_readsRight_note :
    ¬ ∀ (m : Message) (k : CString), k.bytes.length < 30 → m.ReadsRight k.bytes := by
  intro h
  have hcmd := h noteMessage ⟨[0x63, 0x6D, 0x64], by decide⟩ (by decide) 64 (by decide)
  have hreboot := (hcmd.1 [0x72, 0x65, 0x62, 0x6F, 0x6F, 0x74]).mpr
    ⟨_, List.mem_cons_of_mem _ List.mem_cons_self, rfl, _, rfl, rfl⟩
  revert hreboot
  decide

end LeafReader
