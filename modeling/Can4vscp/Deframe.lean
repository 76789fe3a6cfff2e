import Can4vscp.Sync
import Mathlib.Data.List.Induction

/-!
# Can4vscp.Deframe

What the receive machine reports was on the line.

`Sync` goes from frames to reports; this is the way back, for a line with anything on it.
Every report is the content of a stretch DLE STX body DLE ETX of the line, the stretches
lie one behind the other, and each ends where its report is made (`rxCalls_framed`).  The
machine does not insist on doubled DLEs in the body: a DLE before any byte but STX and
ETX is dropped (`destuff`).

The induction is on what has been read; `Partial` says what the machine holds of a frame
that is not complete.
-/

namespace Can4vscp

open Memory ByteStuffing ReadProgram

/-! ## the grammar of a line -/

/-- A byte that ends a body behind a DLE. -/
def delimits (c : UInt8) : Bool := c == STX || c == ETX

/-- The reports of a line from the point where `k` bytes have been read: each has its
own stretch of the line. -/
inductive Framed : Nat → List UInt8 → List Report → Prop where
  | nil (k : Nat) (cs : List UInt8) : Framed k cs []
  | cons {k : Nat} {r : Report} {rs : List Report} (gap body cs : List UInt8)
      (hbody : destuff DLE delimits body = some r.rx.content)
      (hconsumed : r.consumed = k + (gap ++ [DLE, STX] ++ body ++ [DLE, ETX]).length)
      (hrest : Framed r.consumed cs rs) :
      Framed k (gap ++ [DLE, STX] ++ body ++ [DLE, ETX] ++ cs) (r :: rs)

/-- Bytes before the first frame. -/
theorem Framed.prepend {k : Nat} {xs ys : List UInt8} {rs : List Report}
    (h : Framed (k + xs.length) ys rs) : Framed k (xs ++ ys) rs := by
  cases h with
  | nil => exact .nil k _
  | cons gap body cs hbody hconsumed hrest =>
      have hline : xs ++ (gap ++ [DLE, STX] ++ body ++ [DLE, ETX] ++ cs) =
          xs ++ gap ++ [DLE, STX] ++ body ++ [DLE, ETX] ++ cs := by
        simp only [List.append_assoc]
      rw [hline]
      refine .cons (xs ++ gap) body cs hbody ?_ hrest
      simp only [List.length_append] at hconsumed ⊢
      omega

/-- Two stretches of a line, one behind the other. -/
theorem Framed.append {k : Nat} {xs ys : List UInt8} {rs rs' : List Report} (hx : Framed k xs rs)
    (hy : Framed (k + xs.length) ys rs') : Framed k (xs ++ ys) (rs ++ rs') := by
  induction hx with
  | nil k cs => exact hy.prepend
  | @cons k r rs gap body cs hbody hconsumed hrest ih =>
      rw [List.append_assoc _ cs ys]
      refine .cons gap body (cs ++ ys) hbody hconsumed (ih ?_)
      rw [List.length_append] at hy
      rwa [hconsumed, Nat.add_assoc]

/-! ## a frame that is not complete -/

/-- What the machine holds of the bytes since the last report. -/
inductive Partial (s : RxState) : List UInt8 → Prop where
  | between (hs : s.rxMsgState = .none) (hsub : s.rxMsgSubState = .none) (tail : List UInt8) :
      Partial s tail
  | opening (hs : s.rxMsgState = .none) (hsub : s.rxMsgSubState = .dle) (gap : List UInt8) :
      Partial s (gap ++ [DLE])
  | inside (hs : s.rxMsgState = .stx) (hsub : s.rxMsgSubState = .none) (gap body : List UInt8)
      (hbody : destuff DLE delimits body = some s.content) :
      Partial s (gap ++ [DLE, STX] ++ body)
  | escaped (hs : s.rxMsgState = .stx) (hsub : s.rxMsgSubState = .dle) (gap body : List UInt8)
      (hbody : destuff DLE delimits body = some s.content) :
      Partial s (gap ++ [DLE, STX] ++ body ++ [DLE])

variable {s : RxState} {c : UInt8} {tail : List UInt8}

/-- A data byte that is stored is appended to the content. -/
theorem content_data (h : s.lengthMsgRcv < bufferMsgRcvSize) :
    (s.data c).content = s.content ++ [c] := by
  rw [RxState.data, if_pos h]
  simp only [RxState.content]
  rw [slice_add, Nat.zero_add]
  congr 1
  · exact slice_congr fun j _ hj => store_of_ne _ _ (by omega)
  · simp [slice]

/-- A frame is complete at an ETX behind a DLE. -/
theorem rxByte_completes (h : (rxByte s c).2 = true) :
    s.rxMsgState = .stx ∧ s.rxMsgSubState = .dle ∧ ETX = c := by
  unfold rxByte at h
  split at h
  · split at h
    · cases h
    · split at h <;> cases h
  · next hs =>
      split at h
      · cases h
      · split at h
        · cases h
        · split at h
          · next hetx => exact ⟨hs, hetx⟩
          · cases h
  · cases h
  · cases h

/-- A data byte inside a frame, read as `item`: it is kept, or the frame is given up. -/
theorem Partial.data (hs : s.rxMsgState = .stx) (gap body item : List UInt8)
    (hbody : destuff DLE delimits body = some s.content)
    (hitem : destuff DLE delimits item = some [c]) :
    Partial (s.data c) (gap ++ [DLE, STX] ++ (body ++ item)) := by
  by_cases hroom : s.lengthMsgRcv < bufferMsgRcvSize
  · refine .inside ?_ (data_sub s c) gap (body ++ item) ?_
    · rw [RxState.data, if_pos hroom]
      exact hs
    · rw [content_data hroom]
      exact destuff_append hbody hitem
  · rw [RxState.data, if_neg hroom]
    exact .between rfl rfl _

/-- One byte that completes no frame. -/
theorem Partial.byte (h : Partial s tail) (hno : (rxByte s c).2 = false) :
    Partial (rxByte s c).1 (tail ++ [c]) := by
  cases h with
  | between hs hsub tail =>
      by_cases hc : DLE = c
      · subst hc
        have hbyte : rxByte s DLE = ({ s with rxMsgSubState := .dle }, false) := by
          simp [rxByte, hs, hsub]
        rw [hbyte]
        exact .opening (s := { s with rxMsgSubState := .dle }) hs rfl tail
      · simp only [rxByte, hs, hsub, hc, and_false, if_false, reduceCtorEq, false_and]
        exact .between rfl rfl _
  | opening hs hsub gap =>
      by_cases hc : STX = c
      · subst hc
        simp only [rxByte, hs, hsub, and_self, if_true, reduceCtorEq, false_and, if_false]
        have hbegun := Partial.inside (s := s.start) rfl rfl gap [] rfl
        rw [List.append_nil] at hbegun
        rw [List.append_assoc]
        exact hbegun
      · simp only [rxByte, hs, hsub, hc, and_false, if_false, reduceCtorEq, false_and]
        exact .between rfl rfl _
  | inside hs hsub gap body hbody =>
      by_cases hc : DLE = c
      · subst hc
        rw [rxByte_stx_dle s hs hsub]
        exact .escaped (s := { s with rxMsgSubState := .dle }) hs rfl gap body hbody
      · have hdata := rxByte_stx_data s c hs hsub (Ne.symm hc)
        rw [hdata, List.append_assoc]
        exact .data hs gap body [c] hbody (by simp [destuff, Ne.symm hc])
  | escaped hs hsub gap body hbody =>
      by_cases hstx : STX = c
      · -- a new frame begins, the one before was not complete
        subst hstx
        simp only [rxByte, hs, hsub, and_self, if_true, reduceCtorEq, false_and, if_false]
        have hbegun := Partial.inside (s := s.start) rfl rfl (gap ++ [DLE, STX] ++ body) [] rfl
        rw [List.append_nil] at hbegun
        rw [List.append_assoc]
        exact hbegun
      · by_cases hetx : ETX = c
        · simp [rxByte, hs, hsub, hetx, hstx] at hno
        · have hdata : rxByte s c = (s.data c, false) := by simp [rxByte, hs, hsub, hstx, hetx]
          have hitem : destuff DLE delimits [DLE, c] = some [c] := by
            simp [destuff, delimits, Ne.symm hstx, Ne.symm hetx]
          rw [hdata, List.append_assoc, List.append_assoc]
          exact .data hs gap body [DLE, c] hbody hitem

/-- One byte that completes a frame. -/
theorem Partial.completes (h : Partial s tail) (hyes : (rxByte s c).2 = true) :
    ∃ gap body, tail ++ [c] = gap ++ [DLE, STX] ++ body ++ [DLE, ETX] ∧
      destuff DLE delimits body = some (rxByte s c).1.content ∧ (rxByte s c).1.Idle := by
  obtain ⟨hstate, hdle, rfl⟩ := rxByte_completes hyes
  cases h with
  | between hs => rw [hstate] at hs; cases hs
  | opening hs => rw [hstate] at hs; cases hs
  | inside hs hsub => rw [hdle] at hsub; cases hsub
  | escaped hs hsub gap body hbody =>
      have hbyte : rxByte s ETX = ({ s with rxMsgState := .none, rxMsgSubState := .none }, true) := by
        simp [rxByte, hs, hsub, Ne.symm ETX_ne_STX]
      exact ⟨gap, body, by simp, by rw [hbyte]; exact hbody, by rw [hbyte]; exact ⟨rfl, rfl⟩⟩

/-! ## the result -/

/-- What has been read is complete frames and a frame that is not complete. -/
theorem feed_partial (k : Nat) (s : RxState) (hidle : s.Idle) (cs : List UInt8) :
    ∃ done tail, cs = done ++ tail ∧ Framed k done (feed k s cs).2 ∧
      Partial (feed k s cs).1 tail := by
  induction cs using List.reverseRecOn with
  | nil => exact ⟨[], [], rfl, .nil k [], .between hidle.state hidle.sub []⟩
  | append_singleton cs c ih =>
      obtain ⟨done, tail, hcs, hframed, hpartial⟩ := ih
      have hstep : feed (k + cs.length) (feed k s cs).1 [c] =
          ((rxByte (feed k s cs).1 c).1,
            if (rxByte (feed k s cs).1 c).2 then
              [⟨k + cs.length + 1, (rxByte (feed k s cs).1 c).1⟩] else []) := by
        simp [feed]
      rw [feed_append, hstep]
      cases hbyte : (rxByte (feed k s cs).1 c).2 with
      | false =>
          refine ⟨done, tail ++ [c], by rw [hcs, List.append_assoc], ?_, hpartial.byte hbyte⟩
          simpa using hframed
      | true =>
          obtain ⟨gap, body, htail, hbody, hend⟩ := hpartial.completes hbyte
          refine ⟨done ++ (tail ++ [c]), [], by simp [hcs], hframed.append ?_,
            .between hend.state hend.sub []⟩
          have hlen : tail.length + 1 = (gap ++ [DLE, STX] ++ body ++ [DLE, ETX]).length := by
            rw [← htail, List.length_append, List.length_singleton]
          rw [htail, ← List.append_nil (gap ++ [DLE, STX] ++ body ++ [DLE, ETX])]
          refine .cons gap body [] hbody ?_ (.nil _ _)
          change k + cs.length + 1 = _
          rw [← hlen, hcs, List.length_append]
          omega

/-- Successive calls read some first part of the input, byte by byte. -/
theorem rxCalls_feed (n k : Nat) (s : RxState) (input : List ReadChar) :
    ∃ used, bytesOf input = used ++ bytesOf (rxCalls n k s input).2.2 ∧
      feed k s used = ((rxCalls n k s input).1, (rxCalls n k s input).2.1) := by
  induction n generalizing k s input with
  | zero => exact ⟨[], rfl, rfl⟩
  | succ n ih =>
      obtain ⟨used, h1, h2, -⟩ := serialData2StateMachine_spec k s input
      have hlen : (bytesOf input).length - (bytesOf (serialData2StateMachine s input).2.2).length =
          used.length := by
        rw [h1, List.length_append]
        omega
      obtain ⟨used', h1', h2'⟩ := ih (k + used.length) (serialData2StateMachine s input).1
        (serialData2StateMachine s input).2.2
      refine ⟨used ++ used', ?_, ?_⟩
      · simp only [rxCalls, hlen]
        rw [h1, h1', List.append_assoc]
      · rw [feed_append, h2]
        simp only [rxCalls, hlen]
        rw [h2']
        cases (serialData2StateMachine s input).2.1 <;> simp

/-- **No frame out of thin air**: whatever is on the line and however it is cut into calls,
the reports of a receiver that starts between frames are the contents of stretches
DLE STX body DLE ETX of the line, in order, and each is made at the end of its stretch. -/
theorem rxCalls_framed (n : Nat) (rx : RxState) (hidle : rx.Idle) (input : List ReadChar) :
    Framed 0 (bytesOf input) (rxCalls n 0 rx input).2.1 := by
  obtain ⟨used, hbytes, hfeed⟩ := rxCalls_feed n 0 rx input
  obtain ⟨done, tail, hused, hframed, -⟩ := feed_partial 0 rx hidle used
  rw [hfeed] at hframed
  rw [hbytes, hused, List.append_assoc, ← List.append_nil (rxCalls n 0 rx input).2.1]
  exact hframed.append (.nil _ _)

/-- A frame in which a DLE stands before a byte that is no delimiter. -/
theorem rxCalls_framed_lenient :
    let input := ([DLE, STX, 7, DLE, 8, DLE, ETX] : List UInt8).map ReadChar.byte
    Framed 0 (bytesOf input) (rxCalls 1 0 RxState.new input).2.1 ∧
      (rxCalls 1 0 RxState.new input).2.1.map (fun r => r.rx.content) = [[7, 8]] :=
  ⟨rxCalls_framed 1 RxState.new ⟨rfl, rfl⟩ _, by decide⟩

end Can4vscp
