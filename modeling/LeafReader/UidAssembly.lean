import LeafReader.FindTarget

/-!
# The UID over the cascade levels

`pn5180_iso14443_activate` with the ten bytes of `uid_collected` and of `g_pn5180_card.uid`. The loop
goes on while the SAK has the cascade bit, and takes three or four bytes by the cascade tag; a card
chooses the two independently. `uidAssembled_iff` says which cards the arrays and the form of the UID
survive.
-/

namespace LeafReader

variable {σ : Type}

/-! ### The code with its arrays -/

/-- The two exchanges of a cascade level: an answer with the right BCC, and the SAK. -/
def selectLevel (ops : ChipOps σ) (sel : UInt8) (s : σ) : Option (Bytes × UInt8) × σ :=
  match ops.request [sel, 0x20] 0 5 s with
  | (none, s) => (none, s)
  | (some ac, s) =>
    if ac.getD 0 0 ^^^ ac.getD 1 0 ^^^ ac.getD 2 0 ^^^ ac.getD 3 0 ≠ ac.getD 4 0 then (none, s)
    else
      match ops.request ([sel, 0x70] ++ ac) 0 1 (ops.setCrc true s) with
      | (none, s) => (none, s)
      | (some sak, s) => (some (ac, sak.getD 0 0), s)

/-- The anticollision loop with `uid_collected[10]`. -/
def anticollisionChecked (ops : ChipOps σ) :
    Bytes → Bytes → σ → Except Fault (Option (Bytes × UInt8) × σ)
  | [], _, s => .ok (none, s)
  | sel :: rest, uid, s =>
    match selectLevel ops sel s with
    | (none, s) => .ok (none, s)
    | (some (ac, sak), s) => do
      let uid ← fill 10 (uid ++ if ac.getD 0 0 = 0x88 then (ac.drop 1).take 3 else ac.take 4)
      if sak &&& 0x04 = 0 then return (some (uid, sak), s)
      else anticollisionChecked ops rest uid (ops.setCrc false s)

/-- The activation, and the first `uid_len` bytes of `g_pn5180_card.uid`. -/
def pn5180Iso14443ActivateChecked (ops : ChipOps σ) (uidBuf : Nat) (s : σ) :
    Except Fault (Activation σ × Bytes) :=
  let (e, s) := ops.loadRfConfig s
  if e ≠ .ok then .ok (⟨.error .fail, noCard, s⟩, [])
  else
    let (e, s) := ops.rfOn s
    if e ≠ .ok then .ok (⟨.error .fail, noCard, s⟩, [])
    else
      match ops.request [0x26] 7 2 (ops.setCrc false s) with
      | (none, s) => .ok (⟨.error .notFound, noCard, (ops.rfOff s).2⟩, [])
      | (some _, s) => do
        match ← anticollisionChecked ops cascadeCmds [] s with
        | (none, s) => return (⟨.error .fail, noCard, (ops.rfOff s).2⟩, [])
        | (some (uid, sak), s) =>
          let stored ← fill 10 uid
          if sak &&& 0x20 = 0 then return (⟨.ok (uid.take uidBuf, sak), noCard, s⟩, stored)
          else
            match rats ops s with
            | (none, s) => return (⟨.error .fail, noCard, (ops.rfOff s).2⟩, stored)
            | (some ats, s) => return (⟨.ok (uid.take uidBuf, sak), activate ats, s⟩, stored)

theorem anticollision_cons (ops : ChipOps σ) (sel : UInt8) (rest uid : Bytes) (s : σ) :
    anticollision ops (sel :: rest) uid s =
      match selectLevel ops sel s with
      | (none, s) => (none, s)
      | (some (ac, sak), s) =>
        let uid := uid ++ if ac.getD 0 0 = 0x88 then (ac.drop 1).take 3 else ac.take 4
        if sak &&& 0x04 = 0 then (some (uid, sak), s)
        else anticollision ops rest uid (ops.setCrc false s) := by
  rw [anticollision, selectLevel]
  rcases ops.request [sel, 0x20] 0 5 s with ⟨_ | ac, s⟩
  · rfl
  dsimp only
  by_cases hbcc : ac.getD 0 0 ^^^ ac.getD 1 0 ^^^ ac.getD 2 0 ^^^ ac.getD 3 0 ≠ ac.getD 4 0
  · rw [if_pos hbcc, if_pos hbcc]
  · rw [if_neg hbcc, if_neg hbcc]
    rcases ops.request ([sel, 0x70] ++ ac) 0 1 (ops.setCrc true s) with ⟨_ | sak, s⟩
    · rfl
    · rfl

theorem anticollisionChecked_ok {ops : ChipOps σ} {sels uid : Bytes} {s : σ}
    {x : Option (Bytes × UInt8) × σ} (h : anticollisionChecked ops sels uid s = .ok x) :
    anticollision ops sels uid s = x := by
  induction sels generalizing uid s with
  | nil =>
    cases h
    rfl
  | cons sel rest ih =>
    rw [anticollisionChecked] at h
    rw [anticollision_cons]
    generalize selectLevel ops sel s = y at h ⊢
    obtain ⟨_ | ⟨ac, sak⟩, s⟩ := y
    · cases h
      rfl
    obtain ⟨uid', hfill, h⟩ := bind_eq_ok h
    obtain ⟨-, rfl⟩ := fill_eq_ok.1 hfill
    dsimp only
    by_cases hsak : sak &&& 0x04 = 0
    · rw [if_pos hsak] at h ⊢
      cases h
      rfl
    · rw [if_neg hsak] at h ⊢
      exact ih h

theorem pn5180Iso14443ActivateChecked_ok {ops : ChipOps σ} {uidBuf : Nat} {s : σ}
    {x : Activation σ × Bytes} (h : pn5180Iso14443ActivateChecked ops uidBuf s = .ok x) :
    pn5180Iso14443Activate ops uidBuf s = x.1 := by
  rw [pn5180Iso14443ActivateChecked] at h
  rw [pn5180Iso14443Activate]
  dsimp only at h ⊢
  by_cases hload : (ops.loadRfConfig s).1 ≠ .ok
  · rw [if_pos hload] at h ⊢
    cases h
    rfl
  rw [if_neg hload] at h ⊢
  by_cases hon : (ops.rfOn (ops.loadRfConfig s).2).1 ≠ .ok
  · rw [if_pos hon] at h ⊢
    cases h
    rfl
  rw [if_neg hon] at h ⊢
  generalize ops.request [0x26] 7 2 _ = reqa at h ⊢
  obtain ⟨_ | atqa, s⟩ := reqa
  · cases h
    rfl
  obtain ⟨y, hy, h⟩ := bind_eq_ok h
  dsimp only
  rw [anticollisionChecked_ok hy]
  obtain ⟨_ | ⟨uid, sak⟩, s⟩ := y
  · cases h
    rfl
  obtain ⟨stored, -, h⟩ := bind_eq_ok h
  dsimp only
  by_cases hsak : sak &&& 0x20 = 0
  · rw [if_pos hsak] at h ⊢
    cases h
    rfl
  rw [if_neg hsak] at h ⊢
  generalize rats ops s = y at h ⊢
  obtain ⟨_ | ats, s⟩ := y
  · cases h
    rfl
  · cases h
    rfl

/-! ### Cascade levels -/

/-- What a card answers on a cascade level: four bytes, which their BCC follows, and a SAK. -/
structure Level where
  uid0 : UInt8
  uid1 : UInt8
  uid2 : UInt8
  uid3 : UInt8
  sak : UInt8

namespace Level

variable (l : Level)

def answer : Bytes := [l.uid0, l.uid1, l.uid2, l.uid3, l.uid0 ^^^ l.uid1 ^^^ l.uid2 ^^^ l.uid3]

/-- The level starts with the cascade tag. -/
def tagged : Bool := l.uid0 == 0x88

/-- The SAK has the cascade bit. -/
def more : Bool := l.sak &&& 0x04 != 0

/-- The bytes of the level that the code takes for the UID. -/
def part : Bytes := if l.tagged then [l.uid1, l.uid2, l.uid3] else [l.uid0, l.uid1, l.uid2, l.uid3]

theorem length_part : l.part.length = if l.tagged then 3 else 4 := by
  unfold part
  cases l.tagged <;> rfl

theorem take_answer :
    (if l.answer.getD 0 0 = 0x88 then (l.answer.drop 1).take 3 else l.answer.take 4) = l.part := by
  simp [part, tagged, answer]

end Level

/-- The chip hands out the card's answers to the two requests of a level, whenever it hands out any. -/
structure Answers (card : UInt8 → Level) (ops : ChipOps σ) : Prop where
  anticollision : ∀ sel ∈ cascadeCmds, ∀ s ac s',
    ops.request [sel, 0x20] 0 5 s = (some ac, s') → ac = (card sel).answer
  select : ∀ sel ∈ cascadeCmds, ∀ ac s sak s',
    ops.request ([sel, 0x70] ++ ac) 0 1 s = (some sak, s') → sak = [(card sel).sak]

/-- The parts of the levels in ten bytes, with the SAK of the level that ends the UID. -/
def assemble : List Level → Bytes → Except Fault (Option (Bytes × UInt8))
  | [], _ => .ok none
  | l :: ls, uid => do
    let uid ← fill 10 (uid ++ l.part)
    if l.more then assemble ls uid else return some (uid, l.sak)

/-- A card that answers every request. -/
def scriptedChip (card : UInt8 → Level) : ChipOps UInt8 where
  loadRfConfig s := (.ok, s)
  rfOn s := (.ok, s)
  rfOff s := (.ok, s)
  setCrc _ s := s
  sendData frame _ _ := (.ok, frame.getD 0 0)
  readData n sel := (.ok (match n with
    | 1 => [(card sel).sak]
    | 2 => [0x44, 0x03]
    | 5 => (card sel).answer
    | _ => [0x01]), sel)

section

variable {card : UInt8 → Level}

theorem answers_scriptedChip : Answers card (scriptedChip card) := by
  constructor
  · intro sel _ s ac s' h
    cases h
    rfl
  · intro sel _ ac s sak s' h
    cases h
    rfl

theorem selectLevel_scriptedChip (sel s : UInt8) : selectLevel (scriptedChip card) sel s =
    (some ((card sel).answer, (card sel).sak), sel) := by
  simp [selectLevel, ChipOps.request, scriptedChip, Level.answer]

theorem Answers.selectLevel {ops : ChipOps σ} (h : Answers card ops) {sel : UInt8}
    (hsel : sel ∈ cascadeCmds) (s : σ) : ∃ s', selectLevel ops sel s = (none, s') ∨
      selectLevel ops sel s = (some ((card sel).answer, (card sel).sak), s') := by
  unfold LeafReader.selectLevel
  cases hac : ops.request [sel, 0x20] 0 5 s with
  | mk ac s1 =>
    cases ac with
    | none => exact ⟨s1, .inl rfl⟩
    | some ac =>
      obtain rfl := h.anticollision sel hsel s ac s1 hac
      dsimp only
      rw [if_neg (by simp [Level.answer])]
      cases hsak : ops.request ([sel, 0x70] ++ (card sel).answer) 0 1 (ops.setCrc true s1) with
      | mk sak s2 =>
        cases sak with
        | none => exact ⟨s2, .inl rfl⟩
        | some sak =>
          obtain rfl := h.select sel hsel _ _ sak s2 hsak
          exact ⟨s2, .inr rfl⟩

theorem anticollisionChecked_step {ops : ChipOps σ} {sel : UInt8} {s s' : σ}
    (h : LeafReader.selectLevel ops sel s = (some ((card sel).answer, (card sel).sak), s'))
    (rest uid : Bytes) : anticollisionChecked ops (sel :: rest) uid s = do
      let uid ← fill 10 (uid ++ (card sel).part)
      if (card sel).more then anticollisionChecked ops rest uid (ops.setCrc false s')
      else return (some (uid, (card sel).sak), s') := by
  rw [anticollisionChecked, h]
  dsimp only
  rw [Level.take_answer]
  cases fill 10 (uid ++ (card sel).part) with
  | error e => rfl
  | ok uid =>
    by_cases hm : (card sel).sak &&& 0x04 = 0
    · simp [bind, Except.bind, Level.more, hm]
    · simp [bind, Except.bind, Level.more, hm]

/-- A chip with the card's answers assembles what the levels say, or fails. -/
theorem Answers.anticollisionChecked {ops : ChipOps σ} (h : Answers card ops) {sels : Bytes}
    (hsels : ∀ sel ∈ sels, sel ∈ cascadeCmds) (uid : Bytes) (s : σ) :
    ∃ s', anticollisionChecked ops sels uid s = .ok (none, s') ∨
      anticollisionChecked ops sels uid s = (assemble (sels.map card) uid).map (·, s') := by
  induction sels generalizing uid s with
  | nil => exact ⟨s, .inl rfl⟩
  | cons sel rest ih =>
    obtain ⟨s1, hnone | hsome⟩ := h.selectLevel (hsels sel (by simp)) s
    · exact ⟨s1, .inl (by rw [LeafReader.anticollisionChecked, hnone])⟩
    rw [anticollisionChecked_step hsome, List.map_cons, assemble]
    cases fill 10 (uid ++ (card sel).part) with
    | error e => exact ⟨s, .inr rfl⟩
    | ok uid =>
      cases hm : (card sel).more with
      | false => exact ⟨s1, .inr rfl⟩
      | true => exact ih (fun a ha => hsels a (by simp [ha])) uid _

theorem anticollisionChecked_scriptedChip (sels uid : Bytes) (s : UInt8) : ∃ s',
    anticollisionChecked (scriptedChip card) sels uid s =
      (assemble (sels.map card) uid).map (·, s') := by
  induction sels generalizing uid s with
  | nil => exact ⟨s, rfl⟩
  | cons sel rest ih =>
    rw [anticollisionChecked_step (selectLevel_scriptedChip sel s), List.map_cons, assemble]
    cases fill 10 (uid ++ (card sel).part) with
    | error e => exact ⟨s, rfl⟩
    | ok uid =>
      cases hm : (card sel).more with
      | false => exact ⟨sel, rfl⟩
      | true => exact ih uid _

end

/-! ### When the UID is well formed -/

/-- Some level ends the UID. -/
def Ends (ls : List Level) : Prop := ∃ l ∈ ls, l.more = false

/-- Up to the first level without the cascade bit, exactly the levels before it carry the tag. -/
def TagsBeforeLast : List Level → Prop
  | [] => True
  | l :: ls => if l.more then l.tagged = true ∧ TagsBeforeLast ls else l.tagged = false

/-- The call stays in its arrays, and `ESP_OK` comes with a UID of the right form. -/
def UidWellFormed (ls : List Level) (x : Except Fault (Activation σ × Bytes)) : Prop :=
  ∃ c, x = .ok c ∧ ∀ found, c.1.result = .ok found → c.2.length ∈ [4, 7, 10] ∧ TagsBeforeLast ls

/-- So it is with every chip that hands out the card's answers. -/
def UidAssembled (card : UInt8 → Level) : Prop :=
  ∀ (σ : Type) (ops : ChipOps σ) (uidBuf : Nat) (s : σ), Answers card ops →
    UidWellFormed (cascadeCmds.map card) (pn5180Iso14443ActivateChecked ops uidBuf s)

/-- Where some level ends the UID, the tags are those before it. Otherwise three levels are collected
in vain, and two tags keep them within ten bytes. -/
def FormsUid (ls : List Level) : Prop :=
  (Ends ls → TagsBeforeLast ls) ∧ (¬ Ends ls → 2 ≤ ls.countP (·.tagged))

/-- The same of the levels alone. -/
def Assembled (ls : List Level) : Prop :=
  ∃ x, assemble ls [] = .ok x ∧
    ∀ found, x = some found → found.1.length ∈ [4, 7, 10] ∧ TagsBeforeLast ls

theorem assembled_iff (a b c : Level) : Assembled [a, b, c] ↔ FormsUid [a, b, c] := by
  have la := a.length_part
  have lb := b.length_part
  have lc := c.length_part
  simp only [Assembled, FormsUid, Ends, TagsBeforeLast, assemble, List.nil_append]
  rw [fill_of_le (by rw [la]; split <;> omega)]
  simp only [bind, Except.bind, pure, Except.pure]
  cases ha : a.more with
  | false => cases hat : a.tagged <;> simp [la, ha, hat]
  | true =>
    simp only [↓reduceIte]
    rw [fill_of_le (by rw [List.length_append, la, lb]; split <;> split <;> omega)]
    dsimp only
    cases hb : b.more with
    | false => cases hat : a.tagged <;> cases hbt : b.tagged <;> simp [la, lb, ha, hb, hat, hbt]
    | true =>
      simp only [↓reduceIte]
      cases hc : c.more <;> cases hat : a.tagged <;> cases hbt : b.tagged <;>
        cases hct : c.tagged <;> simp [fill, la, lb, lc, ha, hb, hc, hat, hbt, hct]

theorem Answers.wellFormed {card : UInt8 → Level} {ops : ChipOps σ} (h : Answers card ops)
    (hls : Assembled (cascadeCmds.map card)) (uidBuf : Nat) (s : σ) :
    UidWellFormed (cascadeCmds.map card) (pn5180Iso14443ActivateChecked ops uidBuf s) := by
  obtain ⟨x, hx, hform⟩ := hls
  unfold pn5180Iso14443ActivateChecked
  dsimp only
  by_cases hload : (ops.loadRfConfig s).1 ≠ .ok
  · rw [if_pos hload]
    exact ⟨_, rfl, nofun⟩
  rw [if_neg hload]
  by_cases hon : (ops.rfOn (ops.loadRfConfig s).2).1 ≠ .ok
  · rw [if_pos hon]
    exact ⟨_, rfl, nofun⟩
  rw [if_neg hon]
  generalize ops.request [0x26] 7 2 _ = reqa
  obtain ⟨_ | atqa, s1⟩ := reqa
  · exact ⟨_, rfl, nofun⟩
  dsimp only
  obtain ⟨s2, hnone | hsome⟩ := h.anticollisionChecked (fun _ h => h) [] s1
  · rw [hnone]
    exact ⟨_, rfl, nofun⟩
  rw [hsome, hx]
  obtain _ | ⟨uid, sak⟩ := x
  · exact ⟨_, rfl, nofun⟩
  obtain ⟨hlen, htags⟩ := hform _ rfl
  simp only [Except.map, bind, Except.bind]
  rw [fill_of_le (by simp at hlen; omega)]
  dsimp only
  by_cases hsak : sak &&& 0x20 = 0
  · rw [if_pos hsak]
    exact ⟨_, rfl, fun _ _ => ⟨hlen, htags⟩⟩
  rw [if_neg hsak]
  generalize rats ops s2 = y
  obtain ⟨_ | ats, s3⟩ := y
  · exact ⟨_, rfl, nofun⟩
  · exact ⟨_, rfl, fun _ _ => ⟨hlen, htags⟩⟩

theorem assembled_of_scriptedChip {card : UInt8 → Level} (h : UidWellFormed (cascadeCmds.map card)
    (pn5180Iso14443ActivateChecked (scriptedChip card) 10 0)) : Assembled (cascadeCmds.map card) := by
  obtain ⟨c, hc, hform⟩ := h
  obtain ⟨s', hs'⟩ := @anticollisionChecked_scriptedChip card cascadeCmds [] 0x26
  have hstart : pn5180Iso14443ActivateChecked (scriptedChip card) 10 0 = _ :=
    congrArg (· >>= _) hs'
  rw [hstart] at hc
  cases hx : assemble (cascadeCmds.map card) [] with
  | error e =>
    rw [hx] at hc
    cases hc
  | ok x =>
    rw [hx] at hc
    refine ⟨x, hx, ?_⟩
    rintro ⟨uid, sak⟩ rfl
    obtain ⟨y, hy, hc⟩ := bind_eq_ok hc
    cases hy
    obtain ⟨stored, hfill, hc⟩ := bind_eq_ok hc
    obtain ⟨-, rfl⟩ := fill_eq_ok.1 hfill
    by_cases hsak : sak &&& 0x20 = 0
    · rw [if_pos hsak] at hc
      cases hc
      exact hform _ rfl
    · rw [if_neg hsak] at hc
      cases hc
      exact hform _ rfl

/-- A card's UID stays in the ten bytes and is well formed, whatever chip hands out its answers, exactly
if its tags are on the levels before the last, and on two levels where no level is the last. -/
theorem uidAssembled_iff (card : UInt8 → Level) :
    UidAssembled card ↔ FormsUid (cascadeCmds.map card) := by
  rw [← show Assembled (cascadeCmds.map card) ↔ FormsUid (cascadeCmds.map card) from
    assembled_iff (card 0x93) (card 0x95) (card 0x97)]
  constructor
  · intro h
    exact assembled_of_scriptedChip (h _ _ 10 0 answers_scriptedChip)
  · intro h σ ops uidBuf s ha
    exact ha.wellFormed h uidBuf s

/-- Three levels without a tag and with the cascade bit: twelve bytes go into `uid_collected[10]`. -/
theorem not_uidAssembled_untagged : ¬ UidAssembled fun _ => ⟨0x04, 0x11, 0x22, 0x33, 0x04⟩ := by
  intro h
  obtain ⟨x, hx, -⟩ := assembled_of_scriptedChip (h _ _ 10 0 answers_scriptedChip)
  cases hx

end LeafReader
