import LeafReader.LeafFlow

/-!
# Operations over a part of the link

When the link `nfc` is what `view` shows of the link `full`, an operation over `nfc` does what it does
over `full`, seen through `view`.
-/

namespace LeafReader

variable {σ τ : Type}

/-- `full` answers as `nfc` does, and keeps what `view` shows in step with it. -/
def Views (view : τ → σ) (full : Nfc τ) (nfc : Nfc σ) : Prop :=
  ∀ l a, nfc (view l) a = ((full l a).1, view (full l a).2)

def World.view (view : τ → σ) (w : World τ) : World σ := ⟨w.host, view w.link⟩

def Call.view {α : Type} (view : τ → σ) (c : Call τ α) : Call σ α := ⟨c.ret, c.out, c.world.view view⟩

/-- The link with a record of what was sent and answered. -/
def recorded (nfc : Nfc σ) : Nfc (σ × List (Bytes × LinkResult)) := fun l a =>
  ((nfc l.1 a).1, ((nfc l.1 a).2, l.2 ++ [(a, (nfc l.1 a).1)]))

def World.record (w : World σ) : World (σ × List (Bytes × LinkResult)) := ⟨w.host, (w.link, [])⟩

theorem recorded_views (nfc : Nfc σ) : Views Prod.fst (recorded nfc) nfc := fun _ _ => rfl

section

variable (aes : Aes) {view : τ → σ} {full : Nfc τ} {nfc : Nfc σ}

theorem cmacVerify_view (st : UInt8) (out : Out) (w : World τ) :
    cmacVerify aes st out (w.view view) = (cmacVerify aes st out w).map (Call.view view) := by
  unfold cmacVerify
  cases out.respLen with
  | none => rfl
  | some n =>
    cases out.resp with
    | none =>
      simp only [apply_ite (Except.map (Call.view view))]
      rfl
    | some resp =>
      by_cases h8 : n < 8
      · simp only [h8, ↓reduceIte]
        rfl
      · simp only [h8, ↓reduceIte]
        show fill 256 (macHead st w.host.session ++ resp.take (n - 8)) >>= _ = _
        cases fill 256 (macHead st w.host.session ++ resp.take (n - 8)) with
        | error e => rfl
        | ok verify =>
          simp only [bind, Except.bind, pure, Except.pure, apply_ite (Except.map (Call.view view))]
          rfl

theorem cmacFinish_view (x : Call τ (Option UInt8)) :
    cmacFinish aes (x.view view) = (cmacFinish aes x).map (Call.view view) := by
  obtain ⟨_ | st, out, w⟩ := x
  · rfl
  · have hv : cmacVerify aes st out (w.bumpCtr.view view) = _ := cmacVerify_view aes st out w.bumpCtr
    simp only [cmacFinish, apply_ite (Except.map (Call.view view)), ← hv]
    rfl

theorem encSendFinish_view (out : Out) (rx : Bytes) (w : World τ) :
    encSendFinish aes out rx (w.view view) = (encSendFinish aes out rx w).map (Call.view view) := by
  unfold encSendFinish
  cases out.resp <;>
  · simp only [apply_ite (Except.map (Call.view view))]
    rfl

theorem encRecvFinish_view (n : Nat) (out : Out) (rx : Bytes) (w : World τ) :
    encRecvFinish aes n out rx (w.view view) = (encRecvFinish aes n out rx w).map (Call.view view) := by
  simp only [encRecvFinish, apply_ite (Except.map (Call.view view))]
  rfl

theorem encSendTail_view (out : Out) (x : Call τ (Option UInt8)) :
    encSendTail aes out (x.view view) = (encSendTail aes out x).map (Call.view view) := by
  obtain ⟨_ | st, xout, xw⟩ := x
  · rfl
  · simp only [encSendTail, apply_ite (Except.map (Call.view view)), ← encSendFinish_view]
    rfl

theorem encRecvTail_view (n : Nat) (out : Out) (x : Call τ (Option UInt8)) :
    encRecvTail aes n out (x.view view) = (encRecvTail aes n out x).map (Call.view view) := by
  obtain ⟨_ | st, xout, xw⟩ := x
  · rfl
  · simp only [encRecvTail, apply_ite (Except.map (Call.view view)), ← encRecvFinish_view]
    rfl

theorem changeKeyFinish_view (rx : Bytes) (w : World τ) :
    changeKeyFinish aes rx (w.view view) = (changeKeyFinish aes rx w).view view := by
  simp only [changeKeyFinish, apply_ite (Call.view view)]
  rfl

section Views

variable (h : Views view full nfc)
include h

theorem desfireXfer_view (cmd : UInt8) (params : Bytes) (out : Out) (respBuf : Nat) (w : World τ) :
    desfireXfer nfc cmd params out respBuf (w.view view) =
      (desfireXfer full cmd params out respBuf w).view view := by
  unfold desfireXfer
  by_cases hlen : params.length > 255
  · simp only [hlen, ↓reduceIte]
    rfl
  · have hx : nfc (w.view view).link (apdu cmd params) = _ := h w.link (apdu cmd params)
    simp only [hlen, ↓reduceIte, hx]
    cases (full w.link (apdu cmd params)).1 with
    | error e => rfl
    | ok rx =>
      simp only [apply_ite (Call.view view)]
      rfl

theorem desfireSelectApplication_view (aid : Aid) (w : World τ) :
    desfireSelectApplication nfc aid (w.view view) =
      (desfireSelectApplication full aid w).view view := by
  simp only [desfireSelectApplication, desfireXfer_view h, apply_ite (Call.view view)]
  rfl

theorem desfireAuthEv2First_view (keyNo : UInt8) (key rndA : Block) (w : World τ) :
    desfireAuthEv2First aes nfc keyNo key rndA (w.view view) =
      (desfireAuthEv2First aes full keyNo key rndA w).view view := by
  simp only [desfireAuthEv2First, desfireXfer_view h, apply_ite (Call.view view)]
  generalize desfireXfer full 0x71 [keyNo, 0x00, 0x00] (.buf 64) 64 w = x1
  have hx2 (c : Bytes) : desfireXfer nfc 0xAF c x1.out 64 (x1.view view).world = _ :=
    desfireXfer_view h 0xAF c x1.out 64 x1.world
  simp only [Call.view] at hx2 ⊢
  simp only [hx2]
  rfl

theorem cmacAppendAndSend_view (cmd : UInt8) (header data : Bytes) (out : Out) (respBuf : Nat)
    (w : World τ) :
    cmacAppendAndSend aes nfc cmd header data out respBuf (w.view view) =
      (cmacAppendAndSend aes full cmd header data out respBuf w).map (Call.view view) := by
  unfold cmacAppendAndSend
  by_cases hlen : sizeT (header.length + data.length) > 256
  · simp only [hlen, ↓reduceIte]
    rfl
  · simp only [hlen, ↓reduceIte, desfireXfer_view h, cmacFinish_view]
    show fill 263 (macHead cmd w.host.session ++ header ++ data) >>= _ = _
    cases fill 263 (macHead cmd w.host.session ++ header ++ data) with
    | error e => rfl
    | ok macbuf =>
      show fill 256 (header ++ data ++ cmacSession aes w.host macbuf) >>= _ = _
      simp only [bind, Except.bind]
      cases fill 256 (header ++ data ++ cmacSession aes w.host macbuf) <;> rfl

theorem desfireEncSend_view (cmd : UInt8) (header data : Bytes) (out : Out) (w : World τ) :
    desfireEncSend aes nfc cmd header data out (w.view view) =
      (desfireEncSend aes full cmd header data out w).map (Call.view view) := by
  unfold desfireEncSend
  cases encSendPlain cmd header data with
  | error e =>
    simp only [bind, Except.bind, apply_ite (Except.map (Call.view view))]
    rfl
  | ok plain =>
    simp only [bind, Except.bind, desfireXfer_view h, apply_ite (Except.map (Call.view view))]
    exact ite_congr rfl (fun _ => rfl) fun _ => ite_congr rfl (fun _ => rfl) fun _ =>
      ite_congr rfl (fun _ => rfl) fun _ => ite_congr rfl (fun _ => rfl) fun _ =>
        encSendTail_view aes out _

theorem desfireEncRecv_view (cmd : UInt8) (header : Bytes) (n : Nat) (out : Out) (respBuf : Nat)
    (w : World τ) :
    desfireEncRecv aes nfc cmd header n out respBuf (w.view view) =
      (desfireEncRecv aes full cmd header n out respBuf w).map (Call.view view) := by
  unfold desfireEncRecv
  simp only [apply_ite (Except.map (Call.view view))]
  refine ite_congr rfl (fun _ => rfl) fun _ => ite_congr rfl (fun _ => rfl) fun _ =>
    ite_congr rfl (fun _ => rfl) fun _ => ?_
  show fill 71 (macHead cmd w.host.session ++ header) >>= _ = _
  cases fill 71 (macHead cmd w.host.session ++ header) with
  | error e => rfl
  | ok macbuf =>
    simp only [bind, Except.bind, apply_ite (Except.map (Call.view view))]
    refine ite_congr rfl (fun _ => rfl) fun _ => ?_
    rw [show cmacSession aes (w.view view).host macbuf = cmacSession aes w.host macbuf from rfl]
    cases fill 72 (header ++ cmacSession aes w.host macbuf) with
    | error e => rfl
    | ok params =>
      simp only [desfireXfer_view h]
      exact encRecvTail_view aes n out _

theorem desfireChangeKey_view (keyNo : UInt8) (old new : Block) (ver : UInt8) (w : World τ) :
    desfireChangeKey aes nfc keyNo old new ver (w.view view) =
      (desfireChangeKey aes full keyNo old new ver w).view view := by
  simp only [desfireChangeKey, desfireXfer_view h, apply_ite (Call.view view), ← changeKeyFinish_view]
  rfl

theorem Op.run_view (op : Op) (w : World τ) :
    op.run aes nfc (w.view view) = (op.run aes full w).map (Call.view view) := by
  cases op with
  | selectApplication aid => exact congrArg _ (desfireSelectApplication_view h aid w)
  | authEv2First keyNo key rndA => exact congrArg _ (desfireAuthEv2First_view aes h keyNo key rndA w)
  | changeKey keyNo old new ver => exact congrArg _ (desfireChangeKey_view aes h keyNo old new ver w)
  | formatPicc =>
    simp only [run, desfireFormatPicc, cmacAppendAndSend_view aes h,
      apply_ite (Except.map (Call.view view))]
    rfl
  | createApplication aid ks nk =>
    simp only [run, desfireCreateApplication, cmacAppendAndSend_view aes h, desfireXfer_view h,
      apply_ite (Except.map (Call.view view))]
    rfl
  | createStdDataFile fileNo comm rights size =>
    simp only [run, desfireCreateStdDataFile, cmacAppendAndSend_view aes h,
      apply_ite (Except.map (Call.view view))]
    rfl
  | getUid uid =>
    simp only [run, desfireGetUid, desfireEncRecv_view aes h, apply_ite (Except.map (Call.view view))]
    refine ite_congr rfl (fun _ => rfl) fun _ => ?_
    cases desfireEncRecv aes full 0x51 [] 7 (.buf 7) 7 w with
    | error e => rfl
    | ok c =>
      simp only [bind, Except.bind, apply_ite (Except.map (Call.view view))]
      rfl
  | readData fileNo offset length comm out outBuf =>
    cases comm with
    | plain =>
      simp only [run, desfireReadData, desfireXfer_view h]
      rfl
    | cmac =>
      simp only [run, desfireReadData, cmacAppendAndSend_view aes h,
        apply_ite (Except.map (Call.view view))]
      rfl
    | encrypted =>
      simp only [run, desfireReadData, desfireEncRecv_view aes h, apply_ite (Except.map (Call.view view))]
      refine ite_congr rfl (fun _ => rfl) fun _ => ite_congr rfl (fun _ => rfl) fun _ => ?_
      cases desfireEncRecv aes full 0xBD (fileHeader fileNo offset length) length.toNat out outBuf w <;>
        rfl
  | writeData fileNo offset comm data =>
    cases comm with
    | plain =>
      simp only [run, desfireWriteData, desfireXfer_view h, apply_ite (Except.map (Call.view view))]
      refine ite_congr rfl (fun _ => rfl) fun _ => ?_
      cases fill 256 (fileHeader fileNo offset data.length.toUInt32 ++ data) <;> rfl
    | cmac =>
      simp only [run, desfireWriteData, cmacAppendAndSend_view aes h,
        apply_ite (Except.map (Call.view view))]
      rfl
    | encrypted =>
      simp only [run, desfireWriteData, desfireEncSend_view aes h,
        apply_ite (Except.map (Call.view view))]
      refine ite_congr rfl (fun _ => rfl) fun _ => ?_
      cases desfireEncSend aes full 0x3D (fileHeader fileNo offset data.length.toUInt32) data .null w <;>
        rfl

theorem runFlow_view : ∀ (fs : List FlowOp) (w : World τ),
    runFlow aes nfc fs (w.view view) = (runFlow aes full fs w).map (Call.view view)
  | [], w => rfl
  | [f], w => f.op.run_view aes h w
  | f :: g :: rest, w => by
    have ih := runFlow_view (g :: rest)
    simp only [runFlow, f.op.run_view aes h w]
    cases f.op.run aes full w with
    | error e => rfl
    | ok c =>
      refine Eq.trans ?_ (apply_ite (Except.map (Call.view view)) _ _ _).symm
      exact ite_congr rfl (fun _ => rfl) fun _ => ih c.world

end Views

end

end LeafReader
