import Ipcf.Split.Endpoint

/-!
# Which bytes a handler accepts

`lower_put` is two things in one: a test of the bytes, which does not look at the state, and the
action of the handler that accepts them.  `accept` is the test, with the headers and the data it
reads out as its result; `Split.act` is the action; `lowerPut_eq` says that `lower_put` is the
one behind the other.  The rest of the development never unfolds `lower_put` again.

The second half computes `accept` on what the builders of `split.c` queue: the frame of the
headers of a packet, the three acknowledgements, and the complete PATCH frame.
-/

namespace Ipcf

/-- A frame that passed every test made on its bytes. -/
inductive Accepted
  | data (fh : FrmHdr) (mh : MsgHdr) (data : Bytes)
  | ackReq (fh : FrmHdr) (mh : MsgHdr)
  | patch (fh : FrmHdr) (mh : MsgHdr) (data : Bytes)
  | ackAll (fh : FrmHdr) (mh : MsgHdr)
  | ackPart (fh : FrmHdr) (mh : MsgHdr) (data : Bytes)
  deriving DecidableEq, Repr

/-- The sender, whose session the frame is for. -/
def Accepted.src : Accepted → UInt8
  | .data fh _ _ | .ackReq fh _ | .patch fh _ _ | .ackAll fh _ | .ackPart fh _ _ => fh.src

/-- The tests of `lower_put` and of the handlers on a frame without its escapes. -/
def acceptBuf (buf : Bytes) : Option Accepted :=
  match FrmHdr.read buf with
  | none => none
  | some (fh, data) =>
    if !fh.csumOk then none
    else if fh.type = frameTypeData then (procDataCheck data).map fun r => .data fh r.1 r.2
    else if fh.type = frameTypeAckr then (procAckCheck data).map fun mh => .ackReq fh mh
    else if fh.type = frameTypePatch then (procPatchCheck data).map fun r => .patch fh r.1 r.2
    else if fh.type = frameTypeAcka then (procAckCheck data).map fun mh => .ackAll fh mh
    else if fh.type = frameTypeAckp then (procAckPartCheck data).map fun r => .ackPart fh r.1 r.2
    else none

/-- What `lower_put` recovers from the bytes of the link. -/
def recvBuf (raw : Bytes) : Bytes := (deFrame (raw.take (raw.length % 65536)) linkMtu).buf

def accept (raw : Bytes) : Option Accepted := acceptBuf (recvBuf raw)

/-- What the handlers do to the state with a frame they accept. -/
def Split.act (now : ℤ) (stack : Stack) (s : Split) : Accepted → Split
  | .data fh mh data =>
    s.received fh.src
      (procDataRse stack fh mh data ((getRse now fh.src s).getD (resetRse now)))
  | .ackReq fh mh =>
    match getRse now fh.src s with
    | none => s
    | some se => s.received fh.src (procAckReqRse stack fh mh se)
  | .patch fh mh data =>
    match getRse now fh.src s with
    | none => s
    | some se => s.received fh.src (procPatchRse stack fh mh data se)
  | .ackAll fh mh =>
    match getSse now fh.src s with
    | none => s
    | some se => s.sent fh.src (procAckAllSse now fh mh se)
  | .ackPart fh mh data =>
    match getSse now fh.src s with
    | none => s
    | some se => s.sent fh.src (procAckPartSse now stack fh mh data se)

section

variable (now : ℤ) (stack : Stack) (s : Split) (fh : FrmHdr) (mh : MsgHdr) (data : Bytes)

lemma act_ackReq : s.act now stack (.ackReq fh mh) =
    match s.rse fh.src with
    | none => s
    | some se => s.received fh.src
        (procAckReqRse stack fh mh { se with idleTimeout := now + idleTimeout }) := by
  rw [Split.act, getRse]
  cases s.rse fh.src <;> rfl

lemma act_patch : s.act now stack (.patch fh mh data) =
    match s.rse fh.src with
    | none => s
    | some se => s.received fh.src
        (procPatchRse stack fh mh data { se with idleTimeout := now + idleTimeout }) := by
  rw [Split.act, getRse]
  cases s.rse fh.src <;> rfl

lemma act_ackAll : s.act now stack (.ackAll fh mh) =
    match s.sse fh.src with
    | none => s
    | some se => s.sent fh.src
        (procAckAllSse now fh mh { se with idleTimeout := now + idleTimeout }) := by
  rw [Split.act, getSse]
  cases s.sse fh.src <;> rfl

lemma act_ackPart : s.act now stack (.ackPart fh mh data) =
    match s.sse fh.src with
    | none => s
    | some se => s.sent fh.src
        (procAckPartSse now stack fh mh data { se with idleTimeout := now + idleTimeout }) := by
  rw [Split.act, getSse]
  cases s.sse fh.src <;> rfl

end

/-- **The decomposition of `lower_put`.** -/
lemma lowerPut_eq (now : ℤ) (stack : Stack) (raw : Bytes) (s : Split) :
    (lowerPut now stack raw s).1 =
      match accept raw with
      | none => s
      | some a => s.act now stack a := by
  rw [lowerPut, accept, acceptBuf, recvBuf]
  cases hfh : FrmHdr.read (deFrame (raw.take (raw.length % 65536)) linkMtu).buf with
  | none => rfl
  | some r =>
    obtain ⟨fh, data⟩ := r
    simp only
    by_cases hc : fh.csumOk = true
    · simp only [hc, Bool.not_true, Bool.false_eq_true, if_false]
      by_cases h1 : fh.type = frameTypeData
      · simp only [h1, if_true, procData]
        cases procDataCheck data <;> rfl
      simp only [if_neg h1]
      by_cases h2 : fh.type = frameTypeAckr
      · simp only [h2, if_true, procAckReq]
        cases procAckCheck data <;> rfl
      simp only [if_neg h2]
      by_cases h3 : fh.type = frameTypePatch
      · simp only [h3, if_true, procPatch]
        cases procPatchCheck data <;> rfl
      simp only [if_neg h3]
      by_cases h4 : fh.type = frameTypeAcka
      · simp only [h4, if_true, procAckAll]
        cases procAckCheck data <;> rfl
      simp only [if_neg h4]
      by_cases h5 : fh.type = frameTypeAckp
      · simp only [h5, if_true, procAckPart]
        cases procAckPartCheck data <;> rfl
      · simp only [if_neg h5]
    · simp [hc]

lemma lowerPut_rejected {raw : Bytes} (h : accept raw = none) (now : ℤ) (stack : Stack)
    (s : Split) : (lowerPut now stack raw s).1 = s := by
  rw [lowerPut_eq, h]

/-! ## The length of what is recovered -/

lemma length_deFrameLoop_le (len : ℕ) (start : Bool) (frm : Bytes) {p : ℕ} (hp : p ≤ len) :
    (deFrameLoop len start frm p).buf.length ≤ len - p := by
  induction frm generalizing start with
  | nil => cases start <;> simp [deFrameLoop]
  | cons c frm ih =>
    cases start with
    | false =>
      rw [deFrameLoop]
      split_ifs
      · exact ih true
      · exact ih false
    | true =>
      rw [deFrameLoop_true _ _ _ hp]
      simp only [List.length_take]
      omega

/-- `lower_put`'s buffer holds at most `LINK_MTU` bytes. -/
lemma length_recvBuf_le (raw : Bytes) : (recvBuf raw).length ≤ linkMtu :=
  length_deFrameLoop_le linkMtu false _ (Nat.zero_le _)

lemma FrmHdr.length_read {buf data : Bytes} {fh : FrmHdr} (h : FrmHdr.read buf = some (fh, data)) :
    buf.length = frmHdrLen + data.length := by
  unfold FrmHdr.read at h
  split at h
  · obtain ⟨-, rfl⟩ : _ ∧ _ := by simpa using h
    simp only [List.length_cons, frmHdrLen]
    omega
  · simp at h

lemma MsgHdr.length_read {buf data : Bytes} {mh : MsgHdr} (h : MsgHdr.read buf = some (mh, data)) :
    buf.length = msgHdrLen + data.length := by
  unfold MsgHdr.read at h
  split at h
  · obtain ⟨-, rfl⟩ : _ ∧ _ := by simpa using h
    simp only [List.length_cons, msgHdrLen]
    omega
  · simp at h

/-! ## Reading the tests back -/

lemma procDataCheck_eq_some {data rest : Bytes} {mh : MsgHdr} :
    procDataCheck data = some (mh, rest) ↔
      MsgHdr.read data = some (mh, rest) ∧ mh.len = mh.len2 ∧ mh.csumOk [] = true := by
  unfold procDataCheck
  cases hr : MsgHdr.read data with
  | none => simp
  | some r =>
    obtain ⟨mh', rest'⟩ := r
    simp only [Option.some.injEq, Prod.mk.injEq]
    split_ifs with h1 h2
    · simp only [false_iff]
      rintro ⟨⟨rfl, rfl⟩, hlen, -⟩
      exact h1 hlen
    · simp only [false_iff]
      rintro ⟨⟨rfl, rfl⟩, -, hc⟩
      simp [hc] at h2
    · simp only [Option.some.injEq, Prod.mk.injEq]
      constructor
      · rintro ⟨rfl, rfl⟩
        exact ⟨⟨rfl, rfl⟩, by simpa using h1, by simpa using h2⟩
      · rintro ⟨h, -⟩
        exact h

lemma procAckCheck_eq_some {data : Bytes} {mh : MsgHdr} :
    procAckCheck data = some mh ↔
      ∃ rest, MsgHdr.read data = some (mh, rest) ∧ mh.csumOk [] = true := by
  unfold procAckCheck
  cases hr : MsgHdr.read data with
  | none => simp
  | some r =>
    obtain ⟨mh', rest'⟩ := r
    simp only [Option.some.injEq, Prod.mk.injEq]
    split_ifs with h
    · simp only [false_iff]
      rintro ⟨_, ⟨rfl, rfl⟩, hc⟩
      simp [hc] at h
    · simp only [Option.some.injEq]
      constructor
      · rintro rfl
        exact ⟨rest', ⟨rfl, rfl⟩, by simpa using h⟩
      · rintro ⟨_, ⟨rfl, -⟩, -⟩
        rfl

lemma procPatchCheck_eq_some {data rest : Bytes} {mh : MsgHdr} :
    procPatchCheck data = some (mh, rest) ↔
      MsgHdr.read data = some (mh, rest) ∧ sliceLen ≤ rest.length ∧ mh.csumOk [] = true := by
  unfold procPatchCheck
  cases hr : MsgHdr.read data with
  | none => simp
  | some r =>
    obtain ⟨mh', rest'⟩ := r
    simp only [Option.some.injEq, Prod.mk.injEq]
    split_ifs with h1 h2
    · simp only [false_iff]
      rintro ⟨⟨rfl, rfl⟩, hlen, -⟩
      omega
    · simp only [false_iff]
      rintro ⟨⟨rfl, rfl⟩, -, hc⟩
      simp [hc] at h2
    · simp only [Option.some.injEq, Prod.mk.injEq]
      constructor
      · rintro ⟨rfl, rfl⟩
        exact ⟨⟨rfl, rfl⟩, by omega, by simpa using h2⟩
      · rintro ⟨h, -⟩
        exact h

lemma procAckPartCheck_eq_some {data rest : Bytes} {mh : MsgHdr} :
    procAckPartCheck data = some (mh, rest) ↔
      MsgHdr.read data = some (mh, rest) ∧ 1 ≤ rest.length ∧ mh.len.toNat = rest.length ∧
        mh.csumOk rest = true := by
  unfold procAckPartCheck
  cases hr : MsgHdr.read data with
  | none => simp
  | some r =>
    obtain ⟨mh', rest'⟩ := r
    simp only [Option.some.injEq, Prod.mk.injEq]
    split_ifs with h1 h2 h3
    · simp only [false_iff]
      rintro ⟨⟨rfl, rfl⟩, hlen, -⟩
      omega
    · simp only [false_iff]
      rintro ⟨⟨rfl, rfl⟩, -, hlen, -⟩
      exact h2 hlen
    · simp only [false_iff]
      rintro ⟨⟨rfl, rfl⟩, -, -, hc⟩
      simp [hc] at h3
    · simp only [Option.some.injEq, Prod.mk.injEq]
      constructor
      · rintro ⟨rfl, rfl⟩
        exact ⟨⟨rfl, rfl⟩, by omega, by simpa using h2, by simpa using h3⟩
      · rintro ⟨h, -⟩
        exact h

/-- The data of an accepted frame. -/
def Accepted.payload : Accepted → Bytes
  | .data _ _ rest | .patch _ _ rest | .ackPart _ _ rest => rest
  | .ackReq _ _ | .ackAll _ _ => []

/-- What is accepted was in the buffer of `lower_put`. -/
lemma accept_length {raw : Bytes} {a : Accepted} (h : accept raw = some a) :
    a.payload.length ≤ linkMtu := by
  have hbuf := length_recvBuf_le raw
  rw [accept, acceptBuf] at h
  cases hfh : FrmHdr.read (recvBuf raw) with
  | none => simp [hfh] at h
  | some r =>
    obtain ⟨fh, data⟩ := r
    have h1 := FrmHdr.length_read hfh
    have hmsg : ∀ {mh : MsgHdr} {rest : Bytes}, MsgHdr.read data = some (mh, rest) →
        rest.length ≤ linkMtu := by
      intro mh rest hread
      have := MsgHdr.length_read hread
      omega
    simp only [hfh] at h
    split_ifs at h
    · obtain ⟨⟨mh, rest⟩, hcheck, rfl⟩ := Option.map_eq_some_iff.1 h
      exact hmsg (procDataCheck_eq_some.1 hcheck).1
    · obtain ⟨mh, -, rfl⟩ := Option.map_eq_some_iff.1 h
      exact Nat.zero_le _
    · obtain ⟨⟨mh, rest⟩, hcheck, rfl⟩ := Option.map_eq_some_iff.1 h
      exact hmsg (procPatchCheck_eq_some.1 hcheck).1
    · obtain ⟨mh, -, rfl⟩ := Option.map_eq_some_iff.1 h
      exact Nat.zero_le _
    · obtain ⟨⟨mh, rest⟩, hcheck, rfl⟩ := Option.map_eq_some_iff.1 h
      exact hmsg (procAckPartCheck_eq_some.1 hcheck).1

/-! ## What the builders' frames are accepted as -/

lemma frameTypes_ne :
    frameTypeAckr ≠ frameTypeData ∧ frameTypePatch ≠ frameTypeData ∧
      frameTypePatch ≠ frameTypeAckr ∧ frameTypeAcka ≠ frameTypeData ∧
      frameTypeAcka ≠ frameTypeAckr ∧ frameTypeAcka ≠ frameTypePatch ∧
      frameTypeAckp ≠ frameTypeData ∧ frameTypeAckp ≠ frameTypeAckr ∧
      frameTypeAckp ≠ frameTypePatch ∧ frameTypeAckp ≠ frameTypeAcka := by
  decide

lemma acceptBuf_data {fh : FrmHdr} {mh : MsgHdr} (data : Bytes) (htype : fh.type = frameTypeData)
    (hfh : fh.csumOk = true) (hlen : mh.len = mh.len2) (hmh : mh.csumOk [] = true) :
    acceptBuf (fh.bytes ++ mh.bytes ++ data) = some (.data fh mh data) := by
  have hcheck : procDataCheck (mh.bytes ++ data) = some (mh, data) :=
    procDataCheck_eq_some.2 ⟨MsgHdr.read_bytes_append mh data, hlen, hmh⟩
  rw [acceptBuf, List.append_assoc, FrmHdr.read_bytes_append]
  simp [hfh, htype, hcheck]

lemma acceptBuf_ackReq {fh : FrmHdr} {mh : MsgHdr} (data : Bytes) (htype : fh.type = frameTypeAckr)
    (hfh : fh.csumOk = true) (hmh : mh.csumOk [] = true) :
    acceptBuf (fh.bytes ++ mh.bytes ++ data) = some (.ackReq fh mh) := by
  have hcheck : procAckCheck (mh.bytes ++ data) = some mh :=
    procAckCheck_eq_some.2 ⟨data, MsgHdr.read_bytes_append mh data, hmh⟩
  obtain ⟨hne, -⟩ := frameTypes_ne
  rw [acceptBuf, List.append_assoc, FrmHdr.read_bytes_append]
  simp [hfh, htype, hcheck, hne]

lemma acceptBuf_patch {fh : FrmHdr} {mh : MsgHdr} (data : Bytes)
    (htype : fh.type = frameTypePatch) (hfh : fh.csumOk = true) (hmh : mh.csumOk [] = true) :
    acceptBuf (fh.bytes ++ mh.bytes ++ data) =
      if sliceLen ≤ data.length then some (.patch fh mh data) else none := by
  obtain ⟨-, hne1, hne2, -⟩ := frameTypes_ne
  rw [acceptBuf, List.append_assoc, FrmHdr.read_bytes_append]
  simp only [hfh, htype, hne1, hne2, Bool.not_true, Bool.false_eq_true, if_false, if_true]
  rw [procPatchCheck, MsgHdr.read_bytes_append]
  by_cases hlen : sliceLen ≤ data.length
  · simp [hmh, hlen, Nat.not_lt.2 hlen]
  · simp [hlen, Nat.lt_of_not_le hlen]

lemma acceptBuf_ackAll {fh : FrmHdr} {mh : MsgHdr} (data : Bytes) (htype : fh.type = frameTypeAcka)
    (hfh : fh.csumOk = true) (hmh : mh.csumOk [] = true) :
    acceptBuf (fh.bytes ++ mh.bytes ++ data) = some (.ackAll fh mh) := by
  have hcheck : procAckCheck (mh.bytes ++ data) = some mh :=
    procAckCheck_eq_some.2 ⟨data, MsgHdr.read_bytes_append mh data, hmh⟩
  obtain ⟨-, -, -, hne1, hne2, hne3, -⟩ := frameTypes_ne
  rw [acceptBuf, List.append_assoc, FrmHdr.read_bytes_append]
  simp [hfh, htype, hcheck, hne1, hne2, hne3]

lemma acceptBuf_ackPart {fh : FrmHdr} {mh : MsgHdr} {data : Bytes}
    (htype : fh.type = frameTypeAckp) (hfh : fh.csumOk = true) (hpos : 1 ≤ data.length)
    (hlen : mh.len.toNat = data.length) (hmh : mh.csumOk data = true) :
    acceptBuf (fh.bytes ++ mh.bytes ++ data) = some (.ackPart fh mh data) := by
  have hcheck : procAckPartCheck (mh.bytes ++ data) = some (mh, data) :=
    procAckPartCheck_eq_some.2 ⟨MsgHdr.read_bytes_append mh data, hpos, hlen, hmh⟩
  obtain ⟨-, -, -, -, -, -, hne1, hne2, hne3, hne4⟩ := frameTypes_ne
  rw [acceptBuf, List.append_assoc, FrmHdr.read_bytes_append]
  simp [hfh, htype, hcheck, hne1, hne2, hne3, hne4]

/-! ## Frames on the link -/

/-- A complete frame is recovered whole. -/
lemma recvBuf_framed {data : Bytes} (h : escapedLen data ≤ linkMtu) :
    recvBuf (framed data) = data := by
  have hlen := length_framed data
  have hshort := length_lt_escapedLen data
  rw [recvBuf, Nat.mod_eq_of_lt (by rw [hlen]; unfold linkMtu at h; omega), List.take_length,
    deFrame_framed data (by omega)]

lemma accept_framed {data : Bytes} (h : escapedLen data ≤ linkMtu) :
    accept (framed data) = acceptBuf data := by
  rw [accept, recvBuf_framed h]

/-- What is recovered from a frame that did not fit and was queued nevertheless. -/
lemma recvBuf_overrun {escaped : Buffer UInt8 linkMtu} {data f : Bytes}
    (h : ¬ escapedLen data ≤ linkMtu) (hf : f ∈ putEscaped escaped data) :
    ∃ k ≤ data.length, 499 ≤ k ∧ (escapedLen data = linkMtu + 1 ↔ k = data.length) ∧
      (recvBuf f = data.take k ∨
        ∃ (hk : k < data.length) (x : UInt8), x ≠ data[k] ∧ recvBuf f = data.take k ++ [x]) := by
  rw [putEscaped_overrun escaped h, List.mem_singleton] at hf
  have hrecv :
      recvBuf f = (deFrame (escaped.write 0 (enFrame data linkMtu).frm).cells linkMtu).buf := by
    rw [recvBuf, hf, Buffer.size_eq, List.take_of_length_le (by rw [Buffer.size_eq]; decide)]
  rw [hrecv]
  exact deFrame_overrun data escaped h

/-- The type in the header of a frame. -/
def frameType (raw : Bytes) : Option UInt8 := (FrmHdr.read (recvBuf raw)).map fun r => r.1.type

/-- Whether or not the frame fits, its type is sent. -/
lemma frameType_putEscaped {escaped : Buffer UInt8 linkMtu} {fh : FrmHdr} {rest f : Bytes}
    (hf : f ∈ putEscaped escaped (fh.bytes ++ rest)) : frameType f = some fh.type := by
  by_cases h : escapedLen (fh.bytes ++ rest) ≤ linkMtu
  · rw [putEscaped_fits escaped h, List.mem_singleton] at hf
    rw [frameType, hf, recvBuf_framed h, FrmHdr.read_bytes_append]
    rfl
  · obtain ⟨k, -, hk, -, hrecv⟩ := recvBuf_overrun h hf
    have htake : (fh.bytes ++ rest).take k = fh.bytes ++ rest.take (k - frmHdrLen) := by
      rw [List.take_append, List.take_of_length_le, FrmHdr.length_bytes]
      rw [FrmHdr.length_bytes]
      unfold frmHdrLen
      omega
    rw [htake] at hrecv
    rcases hrecv with hrecv | ⟨_, x, _, hrecv⟩
    · rw [frameType, hrecv, FrmHdr.read_bytes_append]
      rfl
    · rw [frameType, hrecv, List.append_assoc, FrmHdr.read_bytes_append]
      rfl

/-- Nothing is accepted out of no bytes. -/
@[simp] lemma accept_nil : accept [] = none := rfl

/-- A frame of one of the two headers and at most 255 bytes of data fits. -/
lemma escapedLen_le_linkMtu {data : Bytes} (h : data.length ≤ 499) : escapedLen data ≤ linkMtu := by
  have := escapedLen_le data
  unfold linkMtu
  omega

lemma length_ackFrame (dst src type reserved seq : UInt8) (data : Bytes) :
    (ackFrame dst src type reserved seq data).length = frmMsgHdrLen + data.length := by
  simp only [ackFrame, List.length_append, FrmHdr.length_bytes, MsgHdr.length_bytes, frmMsgHdrLen]

end Ipcf
