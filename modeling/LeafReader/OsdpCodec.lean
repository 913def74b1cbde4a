import LeafReader.OsdpCp
import LeafReader.OsdpPdSteps

/-!
# What one end writes and the other reads

The record of a command is what the application of the CP gave, and the application of the PD is
asked with it. The data of a reply that comes of an event is that event for the application of the
CP, where its numbers fit their fields.
-/

namespace LeafReader

/-! ### Fields -/

/-- The number in three bytes, where it has no more. -/
theorem ofNat_ofLe24 {n : UInt32} (hn : n.toNat < 2 ^ 24) (rest : Bytes) :
    UInt32.ofNat (ofLe24 (le24 n ++ rest)) = n := by
  rw [ofLe24_le24, Nat.mod_eq_of_lt hn, UInt32.ofNat_toNat]

theorem ofNat_ofBe24 {n : UInt32} (hn : n.toNat < 2 ^ 24) (rest : Bytes) :
    UInt32.ofNat (ofBe24 (be24 n ++ rest)) = n := by
  have h8 : n.toNat >>> 8 = n.toNat / 256 := by rw [Nat.shiftRight_eq_div_pow]
  have h16 : n.toNat >>> 16 = n.toNat / 65536 := by rw [Nat.shiftRight_eq_div_pow]
  have hvalue : ofBe24 (be24 n ++ rest) = n.toNat := by
    simp [ofBe24, be24, h8, h16]
    omega
  rw [hvalue, UInt32.ofNat_toNat]

/-- The CP takes the identification that the PD has sent, where its numbers fit their fields. -/
theorem pdidOf_pdidBytes {id : OsdpPdId} (hversion : id.version < 256) (hmodel : id.model < 256)
    (hvendor : id.vendorCode.toNat < 2 ^ 24) (hfirmware : id.firmwareVersion.toNat < 2 ^ 24) :
    pdidOf (pdidBytes id) = id := by
  obtain ⟨version, model, vendorCode, serialNumber, firmwareVersion⟩ := id
  have hv : (UInt8.ofNat version).toNat = version := UInt8.toNat_ofNat_of_lt' hversion
  have hm : (UInt8.ofNat model).toNat = model := UInt8.toNat_ofNat_of_lt' hmodel
  have hserial := ofLe32_le32 serialNumber (be24 firmwareVersion)
  have hvendor' := ofNat_ofLe24 hvendor ([UInt8.ofNat model, UInt8.ofNat version] ++
    (le32 serialNumber ++ be24 firmwareVersion))
  have hfirmware' := ofNat_ofBe24 hfirmware []
  rw [List.append_nil] at hfirmware'
  rw [pdidOf, pdidBytes, OsdpPdId.mk.injEq, List.append_assoc, List.append_assoc]
  exact ⟨hv, hm, hvendor', hserial, hfirmware'⟩

/-! ### Commands -/

/-- The commands whose record is all that the PD's application is to get. -/
def OsdpCmd.Carried : OsdpCmd → Prop
  | .output .. | .led .. | .buzzer .. => True
  | .text _ _ _ _ _ data => data.length ≤ osdpCmdTextMaxLen
  | .comset address _ => address < 0x7F
  | .mfg vendorCode _ data => vendorCode.toNat < 2 ^ 24 ∧ data.length ≤ osdpCmdMfgMaxDatalen
  | _ => False

theorem outputOf_record (outputNo controlCode : UInt8) (timerCount : UInt16) :
    outputOf (OsdpCmd.output outputNo controlCode timerCount).record =
      .output outputNo controlCode timerCount := by
  show OsdpCmd.output outputNo controlCode (ofLe16 (le16 timerCount ++ [])) = _
  rw [ofLe16_le16]

theorem ledOf_record (reader ledNumber : UInt8) (temporary : OsdpCmdLedParams) (timerCount : UInt16)
    (permanent : OsdpCmdLedParams) :
    ledOf (OsdpCmd.led reader ledNumber temporary timerCount permanent).record =
      .led reader ledNumber temporary timerCount permanent := by
  have htimer := ofLe16_le16 timerCount permanent.bytes
  simpa [ledOf, OsdpCmd.record, OsdpCmdLedParams.bytes, ledParamsAt, le16] using htimer

theorem buzzerOf_record (reader controlCode onCount offCount repCount : UInt8) :
    buzzerOf (OsdpCmd.buzzer reader controlCode onCount offCount repCount).record =
      .buzzer reader controlCode onCount offCount repCount := rfl

theorem textOf_record {data : Bytes} (hdata : data.length ≤ osdpCmdTextMaxLen)
    (reader controlCode tempTime offsetRow offsetCol : UInt8) :
    textOf (OsdpCmd.text reader controlCode tempTime offsetRow offsetCol data).record =
      .text reader controlCode tempTime offsetRow offsetCol data := by
  have hlen : (UInt8.ofNat data.length).toNat = data.length :=
    UInt8.toNat_ofNat_of_lt' (Nat.lt_of_le_of_lt hdata (by decide))
  simp only [textOf, OsdpCmd.record, List.cons_append, List.nil_append,
    List.getD_cons_zero, List.getD_cons_succ,
    List.drop_succ_cons, List.drop_zero, hlen, List.take_length]

theorem comsetOf_record (address : UInt8) (baudRate : UInt32) :
    comsetOf (OsdpCmd.comset address baudRate).record = .comset address baudRate := by
  have hbaud := ofLe32_le32 baudRate []
  rw [List.append_nil] at hbaud
  simp only [comsetOf, OsdpCmd.record, List.cons_append, List.nil_append,
    List.getD_cons_zero, List.drop_succ_cons, List.drop_zero, hbaud]

theorem mfgOf_record {vendorCode : UInt32} {data : Bytes} (hvendor : vendorCode.toNat < 2 ^ 24)
    (hdata : data.length ≤ osdpCmdMfgMaxDatalen) (command : UInt8) :
    mfgOf (OsdpCmd.mfg vendorCode command data).record = .mfg vendorCode command data := by
  have hcode := ofNat_ofLe24 hvendor ([command] ++ data)
  have hlen : data.length % 256 = data.length := Nat.mod_eq_of_lt (Nat.lt_of_le_of_lt hdata (by decide))
  show OsdpCmd.mfg (UInt32.ofNat (ofLe24 (le24 vendorCode ++ ([command] ++ data)))) command
    (data.take ((data.length + 4 - 4) % 256)) = _
  rw [hcode, Nat.add_sub_cancel, hlen, List.take_length]

section Commands

variable {σ : Type} (app : PdApp σ)

/-- A command that the PD has got whole is carried out. The records of outputs, LEDs and buzzers are
acknowledged whatever comes of them. -/
def pdCarryOut (pd : OsdpPd σ) (cmd : OsdpCmd) : PdErr × OsdpPd σ :=
  match cmd with
  | .output .. | .led .. | .buzzer .. =>
      (.none, { (askApp app true pd (some cmd) cmd).2 with reply := .ack })
  | .text .. =>
    match askApp app true pd (some cmd) cmd with
    | (none, pd) => (.reply, pd)
    | (some _, pd) => (.none, { pd with reply := .ack })
  | .comset .. =>
    match askApp app false pd none cmd with
    | (none, pd) => (.reply, pd)
    | (some cmd, pd) => (.none, { pd with reply := comsetReply cmd })
  | _ =>
    match askApp app false pd none cmd with
    | (none, pd) => (.reply, pd)
    | (some _, pd) => (.none, { pd with reply := .ack })

/-- One record is one turn of the loop. -/
theorem pdRecords_one {size : ℕ} {of : Bytes → OsdpCmd} {data : Bytes}
    (hlen : data.length = size) (hsize : 0 < size) (pd : OsdpPd σ) :
    pdRecords app size of pd data =
      (.none, { (askApp app true pd (some (of data)) (of data)).2 with reply := .ack }) := by
  have htake : data.take size = data := List.take_of_length_le (Nat.le_of_eq hlen)
  unfold pdRecords
  rw [hlen, Nat.mod_self, if_neg (fun h => h rfl), Nat.div_self hsize]
  unfold recordLoop
  rw [htake]
  rcases hask : askApp app true pd (some (of data)) (of data) with ⟨_ | _, pd'⟩
  · rfl
  · rfl

/-- The application of the PD is asked with the command that the application of the CP gave. -/
theorem pdDecodeCommand_record {cmd : OsdpCmd} {id : UInt8} {pd : OsdpPd σ} (hid : cmdIdOf cmd = some id)
    (hcarried : cmd.Carried) (hgate : pd.enforceSecure = true → pd.scActive = true) :
    pdDecodeCommand app pd id cmd.record =
      some (pdCarryOut app { pd with reply := .nak nakRecord, cmdId := id } cmd) := by
  have hopen : ¬ (pd.enforceSecure = true ∧ (!pd.scActive) = true ∧ (!openCmd id) = true) := by
    rintro ⟨henforce, hoff, -⟩
    rw [hgate henforce] at hoff
    cases hoff
  have hhandled {handler : OsdpPd σ → Bytes → Option (PdErr × OsdpPd σ)} {r : PdErr × OsdpPd σ}
      (hlook : (pdHandlers app).lookup id = some handler)
      (hr : handler { pd with reply := .nak nakRecord, cmdId := id } cmd.record = some r)
      (hne : r.1 ≠ .generic) :
      pdDecodeCommand app pd id cmd.record = some r := by
    unfold pdDecodeCommand
    rw [if_neg hopen, hlook]
    dsimp only
    rw [hr, Option.map_some]
    obtain ⟨e, pd'⟩ := r
    cases e with
    | generic => exact absurd rfl hne
    | _ => rfl
  set pd₁ : OsdpPd σ := { pd with reply := .nak nakRecord, cmdId := id }
  have hanswer {checked : Bool} {arg : Option OsdpCmd} (mk : OsdpCmd → PdReply) :
      (match askApp app checked pd₁ arg cmd with
        | (none, pd) => (PdErr.reply, pd)
        | (some cmd, pd) => (.none, { pd with reply := mk cmd })).1 ≠ .generic := by
    split <;> nofun
  cases cmd with
  | output outputNo controlCode timerCount =>
    cases hid
    have hlen : (OsdpCmd.output outputNo controlCode timerCount).record.length = 4 := rfl
    refine hhandled rfl (congrArg some ?_) nofun
    rw [pdRecords_one app hlen (by decide), outputOf_record]
    rfl
  | led reader ledNumber temporary timerCount permanent =>
    cases hid
    have hlen : (OsdpCmd.led reader ledNumber temporary timerCount permanent).record.length = 14 := rfl
    refine hhandled rfl (congrArg some ?_) nofun
    rw [pdRecords_one app hlen (by decide), ledOf_record]
    rfl
  | buzzer reader controlCode onCount offCount repCount =>
    cases hid
    have hlen : (OsdpCmd.buzzer reader controlCode onCount offCount repCount).record.length = 5 := rfl
    refine hhandled rfl (congrArg some ?_) nofun
    rw [pdRecords_one app hlen (by decide), buzzerOf_record]
    rfl
  | text reader controlCode tempTime offsetRow offsetCol data =>
    cases hid
    refine hhandled rfl (congrArg some ?_) (hanswer fun _ => .ack)
    have hlen : (UInt8.ofNat data.length).toNat = data.length :=
      UInt8.toNat_ofNat_of_lt' (Nat.lt_of_le_of_lt hcarried (by decide))
    have hok : ¬ ((OsdpCmd.text reader controlCode tempTime offsetRow offsetCol data).record.length < 6 ∨
        (UInt8.ofNat data.length).toNat > osdpCmdTextMaxLen ∨
        (OsdpCmd.text reader controlCode tempTime offsetRow offsetCol data).record.length - 6 <
          (UInt8.ofNat data.length).toNat) := by
      have hrec : (OsdpCmd.text reader controlCode tempTime offsetRow offsetCol data).record.length =
        6 + data.length := by simp [OsdpCmd.record]; omega
      have hmax : data.length ≤ osdpCmdTextMaxLen := hcarried
      rw [hlen, hrec]
      omega
    unfold pdText
    rw [textOf_record hcarried]
    exact if_neg hok
  | comset address baudRate =>
    cases hid
    refine hhandled rfl (congrArg some ?_) (hanswer comsetReply)
    have hok : ¬ ((OsdpCmd.comset address baudRate).record.length ≠ 5 ∨ address ≥ 0x7F) := by
      rintro (hno | hno)
      · exact hno rfl
      · exact absurd hno (UInt8.not_le.2 hcarried)
    unfold pdComset
    rw [comsetOf_record]
    exact if_neg hok
  | mfg vendorCode command data =>
    cases hid
    refine hhandled rfl (congrArg some ?_) (hanswer fun _ => .ack)
    have hlen : (OsdpCmd.mfg vendorCode command data).record.length = 4 + data.length := by
      simp [OsdpCmd.record]
      omega
    have hok : ¬ ((OsdpCmd.mfg vendorCode command data).record.length < 4 ∨
        ((OsdpCmd.mfg vendorCode command data).record.length - 4) % 256 > osdpCmdMfgMaxDatalen) := by
      have hmod := Nat.mod_le data.length 256
      have hmax := hcarried.2
      rw [hlen, Nat.add_sub_cancel_left]
      omega
    unfold pdMfg
    rw [mfgOf_record hcarried.1 hcarried.2]
    exact if_neg hok
  | _ => exact hcarried.elim

end Commands

/-! ### Events -/

/-- The number of entries that both ends go by for a status report. -/
def statusCount (cap : ℕ → OsdpPdCap) : OsdpStatusType → ℕ
  | .input => (cap capContactStatusMonitoring).numItems.toNat
  | .output => (cap capOutputControl).numItems.toNat
  | .onboard => 2
  | .remote => 1

/-- The events that a reply carries whole from a PD with the capabilities `cap`. -/
def OsdpEvent.Carried (cap : ℕ → OsdpPdCap) : OsdpEvent → Prop
  | .cardread readerNo format direction length data =>
    readerNo < 256 ∧ (format = 0 ∨ format = 1) ∧ direction = 0 ∧ length < 65536 ∧
      data.length = (length + 7) / 8 ∧
      data.length ≤ osdpEventMaxDatalen
  | .keypress readerNo data => readerNo < 256 ∧ data.length ≤ osdpEventMaxDatalen
  | .mfgrep vendorCode _ data => vendorCode.toNat < 2 ^ 24 ∧ data.length ≤ osdpEventMaxDatalen
  | .status report => report.nrEntries = report.report.length ∧
      report.report.length = statusCount cap report.type ∧
      report.report.length ≤ osdpStatusReportMaxLen
  | .notification .. => False

instance {cap : ℕ → OsdpPdCap} {event : OsdpEvent} : Decidable (event.Carried cap) :=
  match event with
  | .cardread readerNo format direction length data => inferInstanceAs (Decidable (readerNo < 256 ∧
    (format = 0 ∨ format = 1) ∧ direction = 0 ∧ length < 65536 ∧ data.length = (length + 7) / 8 ∧
      data.length ≤ osdpEventMaxDatalen))
  | .keypress readerNo data =>
      inferInstanceAs (Decidable (readerNo < 256 ∧ data.length ≤ osdpEventMaxDatalen))
  | .mfgrep vendorCode _ data => inferInstanceAs
    (Decidable (vendorCode.toNat < 2 ^ 24 ∧ data.length ≤ osdpEventMaxDatalen))
  | .status report => inferInstanceAs (Decidable (report.nrEntries = report.report.length ∧
    report.report.length = statusCount cap report.type ∧ report.report.length ≤ osdpStatusReportMaxLen))
  | .notification .. => .isFalse fun h => h

theorem firstBytes_self {n : ℕ} {data : Bytes} (h : data.length = n) : firstBytes n data = data := by
  unfold firstBytes
  rw [← h, List.take_left]

theorem toNat_ofNat {n : ℕ} (h : n < 256) : (UInt8.ofNat n).toNat = n := UInt8.toNat_ofNat_of_lt' h

section Events

variable {σ τ : Type} {aes : Aes} {app : PdApp σ} {capp : CpApp τ} {io : PdInput} {cio : CpInput}

/-- The data of the reply that a PD makes of an event. -/
def eventData : OsdpEvent → Bytes
  | .cardread readerNo format _ length data =>
    [UInt8.ofNat readerNo, UInt8.ofNat format] ++ le16 (UInt16.ofNat length) ++ data
  | .keypress readerNo data => [UInt8.ofNat readerNo, UInt8.ofNat data.length] ++ data
  | .mfgrep vendorCode command data => le24 vendorCode ++ [command] ++ data
  | .status report => report.report
  | .notification .. => []

theorem length_eventData_le {cap : ℕ → OsdpPdCap} {e : OsdpEvent} (he : e.Carried cap) :
    (eventData e).length ≤ 68 := by
  cases e with
  | cardread readerNo format direction length data =>
    have hmax : data.length ≤ 64 := he.2.2.2.2.2
    simp only [eventData, List.length_append, List.length_cons, List.length_nil, length_le16]
    omega
  | keypress readerNo data =>
    have hmax : data.length ≤ 64 := he.2
    simp only [eventData, List.length_append, List.length_cons, List.length_nil]
    omega
  | mfgrep vendorCode command data =>
    have hmax : data.length ≤ 64 := he.2
    simp only [eventData, List.length_append, List.length_cons, List.length_nil, length_le24]
    omega
  | status report =>
    have hmax : report.report.length ≤ 64 := he.2.2
    simp only [eventData]
    omega
  | notification => exact he.elim

theorem guarded_pos {α : Type} {need maxLen : ℕ} (h : need < maxLen) (a : α) :
    guarded need maxLen a = some a := if_pos h

/-- What the PD builds of an event. -/
theorem pdReplyData_event {pd : OsdpPd σ} {e : OsdpEvent} (he : e.Carried pd.cap)
    (hreply : pd.reply = pdTranslateEvent e) {maxLen : ℕ} (hroom : 72 ≤ maxLen) (smb : Bytes) :
    pdReplyData aes app io pd maxLen smb = some (some (eventData e), smb, pd) := by
  unfold pdReplyData
  cases e with
  | cardread readerNo format direction length data =>
    obtain ⟨-, hformat, -, -, hlen, hmax⟩ := he
    unfold osdpEventMaxDatalen at hmax
    rw [hreply, pdTranslateEvent, if_pos hformat]
    dsimp only
    rw [guarded_pos (by omega), firstBytes_self hlen]
    rfl
  | keypress readerNo data =>
    obtain ⟨-, hmax⟩ := he
    unfold osdpEventMaxDatalen at hmax
    rw [hreply]
    exact guarded_pos (by omega) _
  | mfgrep vendorCode command data =>
    obtain ⟨-, hmax⟩ := he
    unfold osdpEventMaxDatalen at hmax
    rw [hreply]
    exact guarded_pos (by omega) _
  | status report =>
    obtain ⟨type, n, data⟩ := report
    obtain ⟨hn, hcount, hmax⟩ := he
    unfold osdpStatusReportMaxLen at hmax
    dsimp only at hn hcount hmax
    rw [hreply]
    cases type with
    | input =>
      have hcap : (pd.cap capContactStatusMonitoring).numItems.toNat = data.length := hcount.symm
      simp only [pdTranslateEvent, hcap, hn, ne_eq, not_true_eq_false, if_false, firstBytes_self]
      exact guarded_pos (by omega) _
    | output =>
      have hcap : (pd.cap capOutputControl).numItems.toNat = data.length := hcount.symm
      simp only [pdTranslateEvent, hcap, hn, ne_eq, not_true_eq_false, if_false, firstBytes_self]
      exact guarded_pos (by omega) _
    | onboard =>
      have hlen : data.length = 2 := hcount
      simp only [pdTranslateEvent, firstBytes_self hlen]
      exact guarded_pos (by omega) _
    | remote =>
      have hlen : data.length = 1 := hcount
      simp only [pdTranslateEvent, firstBytes_self hlen]
      exact guarded_pos (by omega) _
  | notification => exact he.elim

/-- The CP keeps the event that the PD sent. -/
theorem cpDecodeResponse_event {cp : OsdpCp τ} {e : OsdpEvent} (he : e.Carried cp.cap) :
    cpDecodeResponse aes capp cio cp (pdTranslateEvent e).id (eventData e) =
      some (.none, cpKeepEvent { cp with replyId := (pdTranslateEvent e).id } e) := by
  have hstatus {type : OsdpStatusType} {n : ℕ} {data : Bytes} (hn : n = data.length)
      (hcount : data.length = statusCount cp.cap type)
      (hmax : data.length ≤ osdpStatusReportMaxLen) (c : OsdpCp τ) :
      cpStatus type (statusCount cp.cap type) c data =
        (.none, cpKeepEvent c (.status ⟨type, n, data⟩)) := by
    unfold cpStatus
    rw [if_neg (not_or.2 ⟨fun h => h hcount, Nat.not_lt.2 hmax⟩), hn]
  unfold cpDecodeResponse
  cases e with
  | cardread readerNo format direction length data =>
    obtain ⟨hreader, hformat, rfl, hlen16, hlen, hmax⟩ := he
    have hid : pdTranslateEvent (.cardread readerNo format 0 length data) =
        .raw readerNo format length data := by
      rw [pdTranslateEvent, if_pos hformat]
    have hbits :
        (ofLe16 ((eventData (.cardread readerNo format 0 length data)).drop 2)).toNat = length := by
      show (ofLe16 (le16 (UInt16.ofNat length) ++ data)).toNat = length
      rw [ofLe16_le16]
      exact UInt16.toNat_ofNat_of_lt' hlen16
    have hdata : (eventData (.cardread readerNo format 0 length data)).drop 4 = data := rfl
    have hsize : (eventData (.cardread readerNo format 0 length data)).length = data.length + 4 := rfl
    have hraw : cpRaw { cp with replyId := replyRaw }
      (eventData (.cardread readerNo format 0 length data)) =
        some (.none, cpKeepEvent { cp with replyId := replyRaw }
          (.cardread readerNo format 0 length data)) := by
      unfold cpRaw
      dsimp only
      rw [hbits, hdata, hsize, ← hlen, Nat.add_sub_cancel,
        if_neg (not_or.2 ⟨Nat.not_lt.2 (Nat.le_add_left ..), fun h => h rfl⟩), if_neg (Nat.not_lt.2 hmax)]
      have hr : ((eventData (.cardread readerNo format 0 length data)).getD 0 0).toNat = readerNo :=
        toNat_ofNat hreader
      have hf : ((eventData (.cardread readerNo format 0 length data)).getD 1 0).toNat = format :=
        toNat_ofNat (by rcases hformat with rfl | rfl <;> decide)
      rw [hr, hf]
    rw [hid]
    exact hraw
  | keypress readerNo data =>
    obtain ⟨hreader, hmax⟩ := he
    have hn : (UInt8.ofNat data.length).toNat = data.length :=
      toNat_ofNat (Nat.lt_of_le_of_lt hmax (by decide))
    have hkeypad : cpKeypad { cp with replyId := replyKeypad } (eventData (.keypress readerNo data)) =
        some (.none, cpKeepEvent { cp with replyId := replyKeypad } (.keypress readerNo data)) := by
      unfold cpKeypad
      show (if data.length + 2 < 2 ∨
        data.length + 2 - 2 ≠ (UInt8.ofNat data.length).toNat then some (_, _)
        else if (UInt8.ofNat data.length).toNat > osdpEventMaxDatalen then none
        else some (_, cpKeepEvent _ (.keypress (UInt8.ofNat readerNo).toNat data))) = _
      rw [hn, toNat_ofNat hreader, Nat.add_sub_cancel,
        if_neg (not_or.2 ⟨Nat.not_lt.2 (Nat.le_add_left ..), fun h => h rfl⟩), if_neg (Nat.not_lt.2 hmax)]
    exact hkeypad
  | mfgrep vendorCode command data =>
    obtain ⟨hvendor, hmax⟩ := he
    have hcode := ofNat_ofLe24 hvendor ([command] ++ data)
    have hmfgrep : cpMfgrep { cp with replyId := replyMfgrep }
      (eventData (.mfgrep vendorCode command data)) =
        (.none, cpKeepEvent { cp with replyId := replyMfgrep } (.mfgrep vendorCode command data)) := by
      unfold cpMfgrep
      show (if data.length + 4 < 4 ∨ data.length + 4 - 4 > osdpEventMfgrepMaxDatalen then (_, _)
        else (_, cpKeepEvent _
          (.mfgrep (UInt32.ofNat (ofLe24 (le24 vendorCode ++ ([command] ++ data)))) command data))) =
          _
      rw [hcode, Nat.add_sub_cancel,
        if_neg (not_or.2 ⟨Nat.not_lt.2 (Nat.le_add_left ..),
          Nat.not_lt.2 (hmax.trans (show osdpEventMaxDatalen ≤ osdpEventMfgrepMaxDatalen by decide))⟩)]
    exact congrArg some hmfgrep
  | status report =>
    obtain ⟨type, n, data⟩ := report
    obtain ⟨hn, hcount, hmax⟩ := he
    dsimp only at hn hcount hmax
    cases type with
    | input => exact congrArg some (hstatus hn hcount hmax _)
    | output => exact congrArg some (hstatus hn hcount hmax _)
    | onboard => exact congrArg some (hstatus hn hcount hmax _)
    | remote => exact congrArg some (hstatus hn hcount hmax _)
  | notification => exact he.elim

end Events

end LeafReader
