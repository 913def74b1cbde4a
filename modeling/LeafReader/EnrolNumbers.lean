import LeafReader.ReaderMode
import LeafReader.SplitArgs
import LeafReader.WsJson

/-!
# Enrolment numbers on both surfaces (`console.c`, `webui.c`)

The console reads the numbers of `enroll` with `strtoul`, the web UI those of its message with `strtol`; both
detect the base and cast the result to the field. The two agree, and take the number that was written, on
decimal numerals that fit the field and a `long` and that a leading zero does not make octal.
-/

namespace LeafReader

/-! ### The console -/

/-- `cmd_enroll`: the credential it queues. -/
def cmdEnroll (argv : List Bytes) : Option Credential :=
  if argv.length < 3 ∨ 4 < argv.length then none
  else
    some {
      facility := (strtoul (argv.getD 1 [])).toUInt16
      cardId := strtoul (argv.getD 2 [])
      issueDate := if argv.length = 4 then strtoul (argv.getD 3 []) else 0 }

/-- `dispatch`, as far as it leads to `cmd_enroll`: the credential that a line queues. -/
def consoleEnroll (line : CString) : Option Credential :=
  let argv := (splitArgs line 8).args
  if argv.head? = some (ascii "enroll") then cmdEnroll argv else none

/-! ### The web UI -/

/-- What a WebSocket command asks for; `error` carries the text of the answer. -/
inductive WsRequest
  | error (message : String)
  | mode (m : ReaderMode)
  | enroll (c : Credential)
  | keySet (k : Bytes)
  | osdpSet (address baud : ℤ)
  | reboot
deriving DecidableEq

/-- `parse_hex_byte` for each of the pairs of digits. -/
def parseHexBytes : Bytes → Option Bytes
  | hi :: lo :: rest =>
    if digitVal hi < 16 ∧ digitVal lo < 16 then
      (parseHexBytes rest).map (UInt8.ofNat (16 * digitVal hi + digitVal lo) :: ·)
    else none
  | _ => some []

def handleWsCommand (json : Bytes) : WsRequest :=
  let (found, cmd) := getStr json (ascii "cmd") 16
  if !found then .error "missing cmd"
  else if cmd = ascii "mode" then
    let (found, val) := getStr json (ascii "value") 16
    if !found then .error "mode: missing value"
    else if val = ascii "idle" then .mode .idle
    else if val = ascii "read" then .mode .read
    else if val = ascii "write" then .mode .write
    else .error "mode: unknown value"
  else if cmd = ascii "enroll" then
    match getInt json (ascii "facility"), getInt json (ascii "id") with
    | some fac, some id =>
      -- the date is optional
      let date := (getInt json (ascii "date")).getD 0
      .enroll ⟨UInt16.ofInt fac, UInt32.ofInt id, UInt32.ofInt date⟩
    | _, _ => .error "enroll: need facility and id"
  else if cmd = ascii "key_set" then
    let (found, hex) := getStr json (ascii "key") 33
    if !found ∨ hex.length ≠ 32 then .error "key_set: need 32 hex chars"
    else
      match parseHexBytes hex with
      | none => .error "key_set: bad hex"
      | some k => .keySet k
  else if cmd = ascii "osdp_set" then
    match getInt json (ascii "address"), getInt json (ascii "baud") with
    | some addr, some baud =>
      if addr < 0 ∨ 126 < addr then .error "osdp_set: invalid address" else .osdpSet addr baud
    | _, _ => .error "osdp_set: need address and baud"
  else if cmd = ascii "reboot" then .reboot
  else .error "unknown cmd"

/-- The credential that a message queues. -/
def webEnroll (json : Bytes) : Option Credential :=
  match handleWsCommand json with
  | .enroll c => some c
  | _ => none

/-! ### One request on both surfaces -/

/-- A text that a console line can carry as one argument. -/
structure ArgText where
  bytes : Bytes
  nonempty : bytes ≠ []
  noSpace : bytes.all (!isSpace ·) = true
  noNul : (0 : UInt8) ∉ bytes

variable (f i d : ArgText)

/-- The line `enroll <facility> <card_id> <issue_date>`. -/
def enrollLine : CString where
  bytes := ascii "enroll" ++ 0x20 :: (f.bytes ++ 0x20 :: (i.bytes ++ 0x20 :: d.bytes))
  noNul := by
    have henroll : (0 : UInt8) ∉ ascii "enroll" := by decide
    simp only [List.mem_append, List.mem_cons, not_or]
    exact ⟨henroll, by decide, f.noNul, by decide, i.noNul, by decide, d.noNul⟩

/-- The message of the enrol form with the same three texts. -/
def enrollMessage : Bytes :=
  ascii "\x7b\"cmd\":\"enroll\",\"facility\":" ++
    (f.bytes ++ (ascii ",\"id\":" ++ (i.bytes ++ (ascii ",\"date\":" ++ (d.bytes ++ ascii "\x7d")))))

/-- Both surfaces take the request the same way, and a credential that is queued has the values of the three
decimal numerals. -/
def EnrolledExactly : Prop :=
  consoleEnroll (enrollLine f i d) = webEnroll (enrollMessage f i d) ∧
  ∀ c, consoleEnroll (enrollLine f i d) = some c ∨ webEnroll (enrollMessage f i d) = some c →
    (IsDecimal f.bytes ∧ IsDecimal i.bytes ∧ IsDecimal d.bytes) ∧
    c.facility.toNat = valueOf 10 f.bytes ∧ c.cardId.toNat = valueOf 10 i.bytes ∧
      c.issueDate.toNat = valueOf 10 d.bytes

/-- A decimal numeral below a bound, and below 8 if it starts with a zero. -/
structure Exact (bound : ℕ) (ds : Bytes) : Prop where
  decimal : IsDecimal ds
  below : valueOf 10 ds < bound
  notOctal : ds.head? = some 0x30 → valueOf 10 ds < 8

/-! ### What the surfaces take -/

theorem console_words :
    runs isSpace (enrollLine f i d).bytes = [ascii "enroll", f.bytes, i.bytes, d.bytes] := by
  have hword {l : Bytes} (h : l.all (!isSpace ·) = true) : ∀ b ∈ l, isSpace b = false := by simpa using h
  have hblank (l : Bytes) : ∀ b ∈ (0x20 :: l).head?, isSpace b = true := by
    intro b hb
    cases hb
    decide
  unfold enrollLine
  rw [runs_append_of_run (by decide) (hword (by decide)) (hblank _), runs_cons_of_sep (by decide),
    runs_append_of_run f.nonempty (hword f.noSpace) (hblank _), runs_cons_of_sep (by decide),
    runs_append_of_run i.nonempty (hword i.noSpace) (hblank _), runs_cons_of_sep (by decide),
    ← List.append_nil d.bytes, runs_append_of_run d.nonempty (hword d.noSpace) (by simp), runs_nil,
    List.append_nil]

theorem consoleEnroll_eq :
    consoleEnroll (enrollLine f i d) =
      some ⟨(strtoul f.bytes).toUInt16, strtoul i.bytes, strtoul d.bytes⟩ := by
  have hargs : (splitArgs (enrollLine f i d) 8).args = [ascii "enroll", f.bytes, i.bytes, d.bytes] := by
    rw [args_splitArgs, (tokens_eq_take_iff 8 _ (by decide)).mpr, console_words]
    · rfl
    · rw [console_words]
      exact .inl (Nat.le_of_ble_eq_true rfl)
  unfold consoleEnroll
  simp only [hargs]
  rfl

/-- The message cut at its quotes. -/
def enrollPieces : List Piece :=
  [⟨.key, ascii "cmd"⟩, ⟨.punct, [0x3A]⟩, ⟨.value, ascii "enroll"⟩, ⟨.punct, [0x2C]⟩,
    ⟨.key, ascii "facility"⟩, ⟨.punct, 0x3A :: (f.bytes ++ [0x2C])⟩,
    ⟨.key, ascii "id"⟩, ⟨.punct, 0x3A :: (i.bytes ++ [0x2C])⟩,
    ⟨.key, ascii "date"⟩, ⟨.punct, 0x3A :: (d.bytes ++ [0x7D])⟩]

theorem quote_notMem_of_isDecimal {ds : Bytes} (h : IsDecimal ds) : quote ∉ ds :=
  fun hq => absurd (h.digit _ hq) (by decide)

variable {f i d}

theorem divided_enrollMessage (hf : IsDecimal f.bytes) (hi : IsDecimal i.bytes) (hd : IsDecimal d.bytes) :
    Divided (enrollMessage f i d) (enrollPieces f i d) := by
  refine ⟨⟨[0x7B], by decide, ?_⟩, ?_⟩
  · simp +decide [enrollMessage, enrollPieces, ascii]
  · have hcolon (ds : Bytes) (c : UInt8) (hds : IsDecimal ds) (hc : quote ≠ c) :
        quote ∉ 0x3A :: (ds ++ [c]) := by
      simp only [List.mem_cons, List.mem_append, List.not_mem_nil, or_false, not_or]
      exact ⟨by decide, quote_notMem_of_isDecimal hds, hc⟩
    simp only [enrollPieces, List.forall_mem_cons, List.not_mem_nil, false_implies, implies_true, and_true]
    refine ⟨by decide, by decide, by decide, by decide, by decide, hcolon _ _ hf (by decide), by decide,
      hcolon _ _ hi (by decide), by decide, hcolon _ _ hd (by decide)⟩

/-- The number behind a colon, clamped to a `long`. -/
theorem readingAt_number {m : Mark} {ds : Bytes} (hds : IsDecimal ds) {c : UInt8} (hc : Stops c)
    (rest : List Piece) :
    readingAt (⟨m, 0x3A :: (ds ++ [c])⟩ :: rest) = some (.int (min (readDecimal ds) (2 ^ 31 - 1) : ℤ)) := by
  obtain ⟨b, l, hbl⟩ := List.exists_cons_of_ne_nil hds.nonempty
  have hb : isFill b = false := isFill_of_decimal (hds.digit b (hbl ▸ List.mem_cons_self))
  have hdrop : (0x3A :: (ds ++ [c])).dropWhile isFill = ds ++ [c] := by
    rw [List.dropWhile_cons_of_pos (by decide), hbl, List.cons_append,
      List.dropWhile_cons_of_neg (by simp [hb])]
  simp only [readingAt, hdrop]
  rw [if_neg (List.append_ne_nil_of_left_ne_nil hds.nonempty _), strtol_append hc, strtol_decimal hds]
  rfl

theorem found_of_first (pre : List Piece) {rest : List Piece} {p : Piece} {k : Bytes} (hk : quote ∉ k)
    (hpre : ∀ p ∈ pre, p.text ≠ k) (hp : p.text = k) (hrest : rest ≠ []) :
    found (pre ++ p :: rest) k = readingAt rest := by
  unfold found
  rw [splitOn_of_notMem hk, firstRun_of_first hpre hp hrest, Option.bind_some]

theorem stops_comma : Stops 0x2C := by decide

theorem stops_brace : Stops 0x7D := by decide

/-- What the numerals become on the web surface. -/
theorem webEnroll_eq (hf : IsDecimal f.bytes) (hi : IsDecimal i.bytes) (hd : IsDecimal d.bytes) :
    webEnroll (enrollMessage f i d) =
      some ⟨UInt16.ofInt (min (readDecimal f.bytes) (2 ^ 31 - 1)),
        UInt32.ofInt (min (readDecimal i.bytes) (2 ^ 31 - 1)),
        UInt32.ofInt (min (readDecimal d.bytes) (2 ^ 31 - 1))⟩ := by
  have hdiv := divided_enrollMessage hf hi hd
  have hcmd : getStr (enrollMessage f i d) (ascii "cmd") 16 = (true, ascii "enroll") :=
    hdiv.getStr_of_found (by decide)
      ((found_of_first [] (by decide) (by simp) rfl (List.cons_ne_nil _ _)).trans rfl) (by decide)
  have hfac : getInt (enrollMessage f i d) (ascii "facility") =
      some (min (readDecimal f.bytes) (2 ^ 31 - 1) : ℤ) := by
    rw [hdiv.getInt_eq_some_iff (by decide), ← readingAt_number hf stops_comma]
    exact found_of_first ((enrollPieces f i d).take 4) (by decide) (by simp +decide [enrollPieces]) rfl
      (List.cons_ne_nil _ _)
  have hid : getInt (enrollMessage f i d) (ascii "id") =
      some (min (readDecimal i.bytes) (2 ^ 31 - 1) : ℤ) := by
    rw [hdiv.getInt_eq_some_iff (by decide), ← readingAt_number hi stops_comma]
    exact found_of_first ((enrollPieces f i d).take 6) (by decide) (by simp +decide [enrollPieces, ascii]) rfl
      (List.cons_ne_nil _ _)
  have hdate : getInt (enrollMessage f i d) (ascii "date") =
      some (min (readDecimal d.bytes) (2 ^ 31 - 1) : ℤ) := by
    rw [hdiv.getInt_eq_some_iff (by decide), ← readingAt_number hd stops_brace]
    exact found_of_first ((enrollPieces f i d).take 8) (by decide) (by simp +decide [enrollPieces, ascii]) rfl
      (List.cons_ne_nil _ _)
  have hmode : ascii "enroll" ≠ ascii "mode" := by decide
  unfold webEnroll handleWsCommand
  simp only [hcmd, hfac, hid, hdate, Bool.not_true, Bool.false_eq_true, if_false, hmode, if_true,
    Option.getD_some]

/-! ### Exact numbers -/

theorem toNat_ofInt16 (n : ℕ) :
    (UInt16.ofInt (min (n : ℤ) (2 ^ 31 - 1))).toNat = min n (2 ^ 31 - 1) % 2 ^ 16 := by
  unfold UInt16.ofInt
  rw [UInt16.toNat_ofNat']
  omega

theorem toNat_ofInt32 (n : ℕ) : (UInt32.ofInt (min (n : ℤ) (2 ^ 31 - 1))).toNat = min n (2 ^ 31 - 1) := by
  unfold UInt32.ofInt
  rw [UInt32.toNat_ofNat']
  omega

/-- The field that a numeral leaves on the console is exact. -/
theorem exact_of_console16 {ds : Bytes} (hds : IsDecimal ds)
    (h : (strtoul ds).toUInt16.toNat = valueOf 10 ds) : Exact (2 ^ 16) ds := by
  have hread := readDecimal_le ds
  have hbelow : valueOf 10 ds < 2 ^ 16 := h ▸ UInt16.toNat_lt _
  refine ⟨hds, hbelow, (readDecimal_eq_iff ds).mp ?_⟩
  rw [UInt32.toNat_toUInt16, strtoul_decimal hds] at h
  omega

theorem exact_of_both32 {ds : Bytes} (hds : IsDecimal ds) (h : (strtoul ds).toNat = valueOf 10 ds)
    (heq : strtoul ds = UInt32.ofInt (min (readDecimal ds : ℤ) (2 ^ 31 - 1))) : Exact (2 ^ 31) ds := by
  have hread := readDecimal_le ds
  have hweb := toNat_ofInt32 (readDecimal ds)
  rw [← heq, h] at hweb
  have hbelow : valueOf 10 ds < 2 ^ 31 := by omega
  refine ⟨hds, hbelow, (readDecimal_eq_iff ds).mp ?_⟩
  omega

theorem Exact.readDecimal {bound : ℕ} {ds : Bytes} (h : Exact bound ds) : readDecimal ds = valueOf 10 ds :=
  (readDecimal_eq_iff ds).mpr h.notOctal

variable (f i d)

/-- An enrolment is taken exactly, and alike on both surfaces, if and only if the three texts are decimal
numerals, the facility at most 65535 and the other two at most 2147483647, and those with a leading zero are
below 8. -/
theorem enrolledExactly_iff :
    EnrolledExactly f i d ↔ Exact (2 ^ 16) f.bytes ∧ Exact (2 ^ 31) i.bytes ∧ Exact (2 ^ 31) d.bytes := by
  have hconsole := consoleEnroll_eq f i d
  constructor
  · rintro ⟨heq, hvalues⟩
    obtain ⟨⟨hf, hi, hd⟩, hfac, hid, hdate⟩ := hvalues _ (.inl hconsole)
    rw [hconsole, webEnroll_eq hf hi hd, Option.some.injEq, Credential.mk.injEq] at heq
    exact ⟨exact_of_console16 hf hfac, exact_of_both32 hi hid heq.2.1, exact_of_both32 hd hdate heq.2.2⟩
  · rintro ⟨hf, hi, hd⟩
    have hfb := hf.below
    have hib := hi.below
    have hdb := hd.below
    have hweb := webEnroll_eq hf.decimal hi.decimal hd.decimal
    have hfac : (strtoul f.bytes).toUInt16.toNat = valueOf 10 f.bytes := by
      rw [UInt32.toNat_toUInt16, strtoul_decimal hf.decimal, hf.readDecimal]
      omega
    have hid : (strtoul i.bytes).toNat = valueOf 10 i.bytes := by
      rw [strtoul_decimal hi.decimal, hi.readDecimal]
      omega
    have hdate : (strtoul d.bytes).toNat = valueOf 10 d.bytes := by
      rw [strtoul_decimal hd.decimal, hd.readDecimal]
      omega
    have heq : consoleEnroll (enrollLine f i d) = webEnroll (enrollMessage f i d) := by
      rw [hconsole, hweb, Option.some.injEq, Credential.mk.injEq, ← UInt16.toNat_inj, ← UInt32.toNat_inj,
        ← UInt32.toNat_inj, hfac, hid, hdate, toNat_ofInt16, toNat_ofInt32, toNat_ofInt32, hf.readDecimal,
        hi.readDecimal, hd.readDecimal]
      omega
    refine ⟨heq, fun c hc => ?_⟩
    rw [← heq, or_self, hconsole, Option.some.injEq] at hc
    subst hc
    exact ⟨⟨hf.decimal, hi.decimal, hd.decimal⟩, hfac, hid, hdate⟩

/-- Facility 1, id 3000000000, date 0: the console queues the id, the web UI 2147483647. -/
theorem not_enrolledExactly_id :
    ¬ ∀ f i d : ArgText, IsDecimal f.bytes → IsDecimal i.bytes → IsDecimal d.bytes →
      EnrolledExactly f i d := by
  intro h
  have hsplit := h ⟨ascii "1", by decide, by decide, by decide⟩
    ⟨ascii "3000000000", by decide, by decide, by decide⟩ ⟨ascii "0", by decide, by decide, by decide⟩
    (by decide) (by decide) (by decide)
  have hid := hsplit.1
  revert hid
  decide +kernel

end LeafReader
