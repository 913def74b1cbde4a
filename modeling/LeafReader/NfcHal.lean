import LeafReader.Bytes

/-!
# The NFC interface (`nfc_hal.h`)

Error codes and the one call the card layers make: `nfc_apdu_exchange`. The link is a parameter:
a function from the link's own state and the APDU to a result and the next link state.
-/

namespace LeafReader

/-- The `esp_err_t` values of the modelled code. -/
inductive EspErr
  | ok | fail | noMem | invalidState | invalidSize | notFound | timeout | invalidResponse
  | invalidCrc | nvsNotFound
deriving DecidableEq, Repr

/-- What a driver leaves in a 280-byte receive buffer. -/
structure Rx where
  bytes : Bytes
  fits : bytes.length ≤ 280
deriving DecidableEq

/-- The outcome of `nfc_apdu_exchange` with a 280-byte buffer. -/
abbrev LinkResult := Except EspErr Rx

abbrev Nfc (σ : Type) := σ → Bytes → LinkResult × σ

/-- The answer `data SW1=91 SW2=status`; one that does not fit the buffer is an error of the link. -/
def LinkResult.answer (status : UInt8) (data : Bytes) : LinkResult :=
  if h : (data ++ [0x91, status]).length ≤ 280 then .ok ⟨data ++ [0x91, status], h⟩ else .error .noMem

/-- Status and data of a result that carries at least two bytes and has `SW1 = 0x91`. -/
def LinkResult.parse : LinkResult → Option (UInt8 × Bytes)
  | .error _ => none
  | .ok rx =>
    if 2 ≤ rx.bytes.length ∧ rx.bytes.getD (rx.bytes.length - 2) 0 = 0x91 then
      some (rx.bytes.getD (rx.bytes.length - 1) 0, rx.bytes.take (rx.bytes.length - 2))
    else none

namespace LinkResult

@[simp] theorem parse_error (e : EspErr) : parse (.error e) = none := rfl

@[simp] theorem parse_ok (status : UInt8) (data : Bytes) (h : (data ++ [0x91, status]).length ≤ 280) :
    parse (.ok ⟨data ++ [0x91, status], h⟩) = some (status, data) := by
  simp [parse, List.getD_eq_getElem?_getD]

theorem parse_answer (status : UInt8) {data : Bytes} (h : data.length + 2 ≤ 280) :
    parse (answer status data) = some (status, data) := by
  have h' : (data ++ [0x91, status]).length ≤ 280 := by simpa using h
  rw [answer, dif_pos h', parse_ok]

theorem parse_answer_of_lt {status : UInt8} {data : Bytes} (h : 280 < data.length + 2) :
    parse (answer status data) = none := by
  have h' : ¬ (data ++ [0x91, status]).length ≤ 280 := by simp; omega
  rw [answer, dif_neg h', parse_error]

end LinkResult

end LeafReader
