import LeafReader.Leaf

/-!
# Modes, patterns and events (`mode_controller.h`, `board_io.h`)

The types the tasks of the reader share, the tables that take a mode to its indicator pattern and a
button event to the mode it asks for, and the one-slot write request.
-/

namespace LeafReader

/-- `reader_mode_t`. -/
inductive ReaderMode
  | idle | read | write
deriving DecidableEq, Repr

/-- `indicator_pattern_t`. -/
inductive IndicatorPattern
  | off | idle | armedRead | armedWrite | grant | deny | wroteOk | error
deriving DecidableEq, Repr

/-- `button_event_t`, less `BTN_NONE`. -/
inductive ButtonEvent
  | short | long | factoryReset
deriving DecidableEq, Repr

/-- `reader_event_kind_t`. -/
inductive ReaderEventKind
  | cardReadOk | cardReadFail | cardWriteOk | cardWriteFail | modeChanged
deriving DecidableEq, Repr

/-- `reader_event_t`; `uid` is the array of seven bytes. -/
structure ReaderEvent where
  kind : ReaderEventKind
  mode : ReaderMode
  cred : Credential
  uid : Bytes
  uidLen : UInt8
deriving DecidableEq

/-- What `nfc_task` copies of a UID into an event. -/
def eventUid (uid : Bytes) : Bytes := uid.take 7 ++ List.replicate (7 - uid.length) 0

theorem length_eventUid (uid : Bytes) : (eventUid uid).length = 7 := by
  rw [eventUid, List.length_append, List.length_take, List.length_replicate]
  omega

/-- Subscribers see the UID of a card of four or seven bytes whole. -/
theorem take_eventUid {uid : Bytes} (h : uid.length ≤ 7) : (eventUid uid).take uid.length = uid := by
  rw [eventUid, List.take_of_length_le h, List.take_left]

/-- The pattern `apply_indicator` passes to `board_indicate`. -/
def applyIndicator : ReaderMode → IndicatorPattern
  | .idle => .idle
  | .read => .armedRead
  | .write => .armedWrite

namespace IndicatorPattern

/-- The patterns that play once. -/
def isEvent : IndicatorPattern → Bool
  | .grant | .deny | .wroteOk | .error => true
  | .off | .idle | .armedRead | .armedWrite => false

/-- The patterns the indicator rests in. -/
def isResting : IndicatorPattern → Bool
  | .idle | .armedRead | .armedWrite => true
  | .off | .grant | .deny | .wroteOk | .error => false

theorem not_event_of_resting {p : IndicatorPattern} (h : p.isResting = true) : p.isEvent = false := by
  cases p <;> first | rfl | cases h

theorem not_resting_of_event {p : IndicatorPattern} (h : p.isEvent = true) : p.isResting = false := by
  cases p <;> first | rfl | cases h

end IndicatorPattern

theorem isResting_applyIndicator (m : ReaderMode) : (applyIndicator m).isResting = true := by
  cases m <;> rfl

/-- The mode `mode_handle_button` sets when `mode_get` returned `m`. -/
def ButtonEvent.target : ButtonEvent → ReaderMode → Option ReaderMode
  | .short, m => some (if m = .read then .idle else .read)
  | .long, m => some (if m = .write then .idle else .write)
  | .factoryReset, _ => none

/-- The event `mode_set` posts. -/
def modeChangedEvent (m : ReaderMode) : ReaderEvent := ⟨.modeChanged, m, ⟨0, 0, 0⟩, eventUid [], 0⟩

/-- `reader_write_request_t`. -/
structure WriteRequest where
  cred : Credential
  pending : Bool
deriving DecidableEq

/-- `mode_set_write_request`, one critical section. -/
def modeSetWriteRequest (c : Credential) (_ : WriteRequest) : WriteRequest := ⟨c, true⟩

/-- `mode_take_write_request`, one critical section. -/
def modeTakeWriteRequest (r : WriteRequest) : Option Credential × WriteRequest :=
  if r.pending then (some r.cred, { r with pending := false }) else (none, r)

end LeafReader
