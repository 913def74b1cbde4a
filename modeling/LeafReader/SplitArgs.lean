import LeafReader.CString

/-!
# The console's tokenizer (`console.c`)

`split_args` overwrites the blanks before a word with NULs, records where the word starts and runs to its
end. The blank behind a word is overwritten on the next turn of the loop. With all slots taken there is no
next turn, and the last argument runs on to the end of the line.
-/

namespace LeafReader

/-- What `split_args` leaves: the line's memory and the pointers in `argv`, as places in the line. -/
structure Split where
  mem : Bytes
  argv : List ℕ
deriving DecidableEq

/-- The loop of `split_args` with `slots = max_argv - argc` and the pointer `p` at the start of `text`, whose
end is the NUL of the line. -/
def splitFrom : ℕ → ℕ → Bytes → Split
  | 0, _, text => ⟨text, []⟩
  | slots + 1, p, text =>
    -- while (*p && isspace((unsigned char)*p)) *p++ = '\0';
    let blanks := text.takeWhile isSpace
    let rest := text.dropWhile isSpace
    let cleared := List.replicate blanks.length 0
    -- if (!*p) break;
    if rest = [] then ⟨cleared, []⟩
    else
      -- argv[argc++] = p; while (*p && !isspace((unsigned char)*p)) p++;
      let start := p + blanks.length
      let word := rest.takeWhile (!isSpace ·)
      let after := splitFrom slots (start + word.length) (rest.dropWhile (!isSpace ·))
      ⟨cleared ++ (word ++ after.mem), start :: after.argv⟩

def splitArgs (line : CString) (maxArgv : ℕ) : Split := splitFrom maxArgv 0 line.bytes

/-- The arguments read as C strings. -/
def Split.args (s : Split) : List Bytes := s.argv.map (cstr s.mem)

/-- What the arguments are: every word but the one in the last slot, which is the rest of the line. -/
def tokens : ℕ → Bytes → List Bytes
  | 0, _ => []
  | slots + 1, text =>
    let rest := text.dropWhile isSpace
    if rest = [] then []
    else if slots = 0 then [rest]
    else rest.takeWhile (!isSpace ·) :: tokens slots (rest.dropWhile (!isSpace ·))

theorem nul_notMem_of_sublist {l m : Bytes} (h : (0 : UInt8) ∉ m) (hl : l.Sublist m) : (0 : UInt8) ∉ l :=
  fun h0 => h (hl.subset h0)

/-- The word before a place where the loop goes on ends there, for a blank there is overwritten. -/
theorem takeWhile_nul_splitFrom (slots p : ℕ) {text : Bytes} (h0 : (0 : UInt8) ∉ text)
    (hs : ∀ b ∈ text.head?, isSpace b = true) :
    (splitFrom slots p text).mem.takeWhile (· ≠ 0) = if slots = 0 then text else [] := by
  cases slots with
  | zero => exact takeWhile_nul_of_not_mem h0
  | succ slots =>
    rw [if_neg (Nat.succ_ne_zero slots)]
    cases text with
    | nil => rfl
    | cons b text =>
      have hb : isSpace b = true := hs b rfl
      simp only [splitFrom, List.takeWhile_cons_of_pos hb, List.length_cons, List.replicate_succ]
      split <;> simp

/-- Read as C strings, the arguments are the tokens. `pre` is the part of the line before the pointer. -/
theorem args_splitFrom (slots : ℕ) (pre text : Bytes) (h0 : (0 : UInt8) ∉ text) :
    (splitFrom slots pre.length text).argv.map (cstr (pre ++ (splitFrom slots pre.length text).mem)) =
      tokens slots text := by
  induction slots generalizing pre text with
  | zero => rfl
  | succ slots ih =>
    simp only [splitFrom, tokens]
    generalize hrest : text.dropWhile isSpace = rest
    split
    · rfl
    next hne =>
      generalize hcleared : List.replicate (text.takeWhile isSpace).length (0 : UInt8) = cleared
      have hlen : (text.takeWhile isSpace).length = cleared.length := by
        rw [← hcleared, List.length_replicate]
      obtain ⟨word, after, hsplit, hword, hafter, -, -, hhead⟩ := exists_run hrest hne
      have hr0 : (0 : UInt8) ∉ word ++ after :=
        nul_notMem_of_sublist h0 (hsplit ▸ hrest ▸ List.dropWhile_sublist _)
      have hw0 := nul_notMem_of_sublist hr0 (List.sublist_append_left word after)
      have ha0 := nul_notMem_of_sublist hr0 (List.sublist_append_right word after)
      rw [hword, hafter]
      -- the first argument starts behind the cleared blanks and ends with the word or the line
      have hfirst : cstr (pre ++ (cleared ++ (word ++ (splitFrom slots (pre.length + cleared.length + word.length)
          after).mem))) (pre.length + cleared.length) = if slots = 0 then rest else word := by
        rw [cstr_append, ← Nat.add_zero cleared.length, cstr_append]
        unfold cstr
        rw [List.drop_zero, takeWhile_nul_append hw0, takeWhile_nul_splitFrom _ _ ha0 hhead]
        split
        · exact hsplit.symm
        · exact List.append_nil word
      -- the others are those of the loop that goes on behind the word
      have hothers := ih (pre ++ cleared ++ word) after ha0
      rw [List.length_append, List.length_append, List.append_assoc, List.append_assoc] at hothers
      rw [hlen, List.map_cons, hfirst, hothers]
      split
      next hz =>
        subst hz
        rfl
      · rfl

theorem args_splitArgs (line : CString) (maxArgv : ℕ) :
    (splitArgs line maxArgv).args = tokens maxArgv line.bytes :=
  args_splitFrom maxArgv [] line.bytes line.noNul

theorem length_tokens (slots : ℕ) (text : Bytes) :
    (tokens slots text).length = min slots (runs isSpace text).length := by
  induction slots generalizing text with
  | zero => simp [tokens]
  | succ slots ih =>
    simp only [tokens]
    generalize hrest : text.dropWhile isSpace = rest
    split
    next hnil =>
      subst hnil
      rw [runs_eq_nil_iff.mpr (List.dropWhile_eq_nil_iff.mp hrest)]
      rfl
    next hne =>
      rw [runs_of_dropWhile hrest hne, List.length_cons, Nat.succ_min_succ]
      split
      next hz => rw [hz, Nat.zero_min, List.length_singleton]
      · rw [List.length_cons, ih]

/-- The tokens are the words as far as slots reach, unless the last slot takes more than its word. -/
theorem tokens_eq_take_iff (slots : ℕ) (text : Bytes) (hslots : 1 ≤ slots) :
    tokens slots text = (runs isSpace text).take slots ↔
      (runs isSpace text).length < slots ∨
        (runs isSpace text).length = slots ∧ endsIn isSpace text = false := by
  induction slots generalizing text with
  | zero => omega
  | succ slots ih =>
    simp only [tokens]
    generalize hrest : text.dropWhile isSpace = rest
    split
    next hnil =>
      subst hnil
      rw [runs_eq_nil_iff.mpr (List.dropWhile_eq_nil_iff.mp hrest)]
      simp
    next hne =>
      obtain ⟨word, after, hsplit, hword, hafter, hwordNe, hrun, -⟩ := exists_run hrest hne
      rw [runs_of_dropWhile hrest hne, endsIn_of_dropWhile (hrest.trans hsplit) hwordNe hrun,
        List.take_succ_cons, List.length_cons, hword, hafter, hsplit]
      split
      next hz =>
        -- the last slot: right only if the line ends with the word
        subst hz
        rw [List.take_zero]
        constructor
        · intro h
          have hafter : after = [] := by simpa using h
          subst hafter
          exact .inr ⟨rfl, rfl⟩
        · rintro (h | ⟨h, hb⟩)
          · omega
          · have hall := runs_eq_nil_iff.mp (List.eq_nil_of_length_eq_zero (Nat.succ.inj h))
            by_cases hafter : after = []
            · rw [hafter, List.append_nil]
            · rw [endsIn_of_sep hafter hall] at hb
              cases hb
      next hz =>
        rw [List.cons_inj_right, ih after (Nat.one_le_iff_ne_zero.mpr hz), Nat.add_lt_add_iff_right,
          Nat.add_right_cancel_iff]

/-- `argc` counts the words up to `max_argv`, and each argument reads as its word. -/
def Tokenized (line : CString) (maxArgv : ℕ) : Prop :=
  let s := splitArgs line maxArgv
  let words := runs isSpace line.bytes
  s.argv.length = min maxArgv words.length ∧
    ∀ i (h : i < s.argv.length), words[i]? = some (cstr s.mem s.argv[i])

theorem tokenized_iff_tokens (line : CString) (maxArgv : ℕ) :
    Tokenized line maxArgv ↔ tokens maxArgv line.bytes = (runs isSpace line.bytes).take maxArgv := by
  have hargs := args_splitArgs line maxArgv
  have hlen : (splitArgs line maxArgv).argv.length = min maxArgv (runs isSpace line.bytes).length := by
    rw [← length_tokens, ← hargs, Split.args, List.length_map]
  rw [← hargs]
  constructor
  · rintro ⟨-, h⟩
    apply List.ext_getElem
    · rw [Split.args, List.length_map, List.length_take, hlen]
    · intro i hi _
      rw [Split.args, List.length_map] at hi
      have hw := h i hi
      rw [List.getElem?_eq_some_iff] at hw
      obtain ⟨_, hw⟩ := hw
      rw [List.getElem_take, hw]
      simp [Split.args]
  · intro h
    refine ⟨hlen, fun i hi => ?_⟩
    have hi' : i < ((runs isSpace line.bytes).take maxArgv).length := by
      rw [List.length_take, ← hlen]
      exact hi
    have hget : (splitArgs line maxArgv).args[i]? = ((runs isSpace line.bytes).take maxArgv)[i]? := by rw [h]
    rw [Split.args, List.getElem?_map, List.getElem?_eq_getElem hi, List.getElem?_take_of_lt
      (by rw [List.length_take] at hi'; omega)] at hget
    exact hget.symm

/-- `split_args` tokenizes exactly the lines with fewer words than slots, and those with as many that do not
end with a blank. -/
theorem tokenized_iff (line : CString) (maxArgv : ℕ) (hmax : 1 ≤ maxArgv) :
    Tokenized line maxArgv ↔
      (runs isSpace line.bytes).length < maxArgv ∨
        (runs isSpace line.bytes).length = maxArgv ∧ endsIn isSpace line.bytes = false := by
  rw [tokenized_iff_tokens, tokens_eq_take_iff maxArgv line.bytes hmax]

/-- The line `a b` in three slots. -/
theorem tokenized_iff_ab : Tokenized ⟨[97, 32, 98], by decide⟩ 3 :=
  (tokenized_iff ⟨[97, 32, 98], by decide⟩ 3 (by decide)).mpr (.inl (by decide))

/-- Eight words and a blank behind them in the eight slots of `dispatch`: the last argument keeps the
blank. -/
theorem not_tokenized_trailingBlank :
    ¬ ∀ (line : CString) (maxArgv : ℕ), 1 ≤ maxArgv → Tokenized line maxArgv := by
  intro h
  have hline := h ⟨[97, 32, 98, 32, 99, 32, 100, 32, 101, 32, 102, 32, 103, 32, 104, 32], by decide⟩ 8
    (by decide)
  have h7 := hline.2 7 (by decide)
  revert h7
  decide

end LeafReader
