import Can4vscp.Emulator
import Can4vscp.Wire

/-!
# Can4vscp.AdapterHears

What the adapter of the tests hears of a port that several threads write to and that may
fail.

A frame that is cut off leaves the adapter inside a frame.  The next DLE STX makes it start
again, unless the cut went through a pair of DLEs: then that DLE STX is taken for data, and
the adapter handles what it has collected and the next frame as one.  So every frame that
was written whole is handled, once and in order, and the only frames that may be damaged
are those behind one that was cut off (`adapter_hears`).
-/

namespace Can4vscp

open Memory ByteStuffing Pipeline

namespace Emulator

/-! ## the frames that are handled -/

/-- The frame a byte completes. -/
def completed (e : Emulator) (c : UInt8) : List (List UInt8) :=
  if e.bInFrame = true ∧ e.bPendingDLE = true ∧ ETX = c then [e.frame] else []

variable (crc8 : UInt8 → UInt8 → UInt8) (garbage : Mem UInt8)

/-- One byte, and the frame `handleFrame` is called for. -/
def hear (e : Emulator) (c : UInt8) : Emulator × List (List UInt8) :=
  ((feed crc8 garbage e c).1, completed e c)

/-- The frames `handleFrame` is called for while the bytes are read. -/
def handled (e : Emulator) (cs : List UInt8) : List (List UInt8) :=
  (transduce (hear crc8 garbage) e cs).2

/-- `handleFrame` leaves the parser alone. -/
theorem handleFrame_flags (e : Emulator) :
    (handleFrame crc8 garbage e).1.bInFrame = e.bInFrame ∧
      (handleFrame crc8 garbage e).1.bPendingDLE = e.bPendingDLE ∧
      (handleFrame crc8 garbage e).1.bLastWasDLE = e.bLastWasDLE := by
  unfold handleFrame
  dsimp only
  repeat' split
  all_goals exact ⟨rfl, rfl, rfl⟩

/-! ## the parser on frames -/

/-- A DLE is only pending inside a frame. -/
def Reads (e : Emulator) : Prop := e.bPendingDLE = true → e.bInFrame = true

/-- Between frames, and not behind a DLE. -/
def Fresh (e : Emulator) : Prop :=
  e.bInFrame = false ∧ e.bPendingDLE = false ∧ e.bLastWasDLE = false

/-- What the parser has collected stands at the end of the bytes it has read: behind a DLE
STX, every DLE doubled, and with one more DLE if one is pending. -/
structure Collects (e : Emulator) (cs : List UInt8) : Prop where
  inside : e.bInFrame = true → ∃ before, cs = before ++ [DLE, STX] ++ stuff DLE e.frame ++
    if e.bPendingDLE = true then [DLE] else []
  outside : e.bInFrame = false → e.bLastWasDLE = true → ∃ before, cs = before ++ [DLE]

variable {e : Emulator} {cs : List UInt8}

/-- None is pending outside. -/
theorem Reads.bPendingDLE (h : e.Reads) (hin : e.bInFrame = false) : e.bPendingDLE = false := by
  by_contra hpending
  simp [h (by simpa using hpending)] at hin

theorem Fresh.reads (h : e.Fresh) : e.Reads := by
  simp [Reads, h.2.1]

theorem Fresh.collects (h : e.Fresh) : e.Collects [] where
  inside hin := by simp [h.1] at hin
  outside _ hlast := by simp [h.2.2] at hlast

/-- The parser leaves the frame, or gives up. -/
theorem collects_of_fresh (h : e.bInFrame = false) (hlast : e.bLastWasDLE = false) :
    e.Collects cs where
  inside hin := by simp [h] at hin
  outside _ hdle := by simp [hlast] at hdle

/-- A byte outside a frame. -/
theorem Collects.feed_outside (h : e.Collects cs) (hin : e.bInFrame = false)
    (hno : e.bPendingDLE = false) (c : UInt8) :
    (Emulator.feed crc8 garbage e c).1.Collects (cs ++ [c]) := by
  simp only [Emulator.feed, if_pos hin]
  split
  · next hbegins =>
      -- DLE STX
      obtain ⟨before, hcs⟩ := h.outside hin hbegins.1
      obtain ⟨-, rfl⟩ := hbegins
      exact ⟨fun _ => ⟨before, by simp [hcs, hno]⟩, fun hout => by simp at hout⟩
  · refine ⟨fun hin' => by simp [hin] at hin', fun _ hdle => ⟨cs, ?_⟩⟩
    rw [← beq_iff_eq.mp hdle]

/-- A byte inside a frame. -/
theorem Collects.feed_inside (h : e.Collects cs) (hin : e.bInFrame = true) (c : UInt8) :
    (Emulator.feed crc8 garbage e c).1.Collects (cs ++ [c]) := by
  obtain ⟨before, hcs⟩ := h.inside hin
  simp only [Emulator.feed, hin]
  by_cases hpending : e.bPendingDLE = true
  · rw [if_pos hpending] at hcs
    by_cases hdle : DLE = c
    · subst hdle
      exact ⟨fun _ => ⟨before, by simp [hcs, hpending]⟩, fun hout => by simp [hpending] at hout⟩
    · by_cases hetx : ETX = c
      · have hflags := handleFrame_flags crc8 garbage
          { e with bPendingDLE := false, bInFrame := false, bLastWasDLE := false }
        simp only [hpending, hdle, hetx, Bool.true_eq_false, if_true, if_false]
        exact collects_of_fresh hflags.1 hflags.2.2
      · by_cases hstx : STX = c
        · subst hstx
          refine ⟨fun _ => ⟨before ++ [DLE, STX] ++ stuff DLE e.frame, ?_⟩, fun hout => ?_⟩
          · simp [hcs, hpending, hdle, hetx]
          · simp [hpending, hdle, hetx] at hout
        · simp only [hpending, hdle, hetx, hstx, Bool.true_eq_false, if_true, if_false]
          exact collects_of_fresh rfl rfl
  · rw [if_neg hpending, List.append_nil] at hcs
    by_cases hdle : DLE = c
    · subst hdle
      exact ⟨fun _ => ⟨before, by simp [hcs, hpending]⟩, fun hout => by simp [hpending] at hout⟩
    · refine ⟨fun _ => ⟨before, ?_⟩, fun hout => by simp [hpending, hdle] at hout⟩
      simp [hcs, hpending, hdle, stuff1_of_ne (Ne.symm hdle)]

theorem Reads.feed (h : e.Reads) (c : UInt8) : (feed crc8 garbage e c).1.Reads := by
  unfold Emulator.feed
  by_cases hin : e.bInFrame = false
  · have hno := h.bPendingDLE hin
    simp only [hin, if_true]
    split <;> simp [Reads, hno]
  · rw [if_neg hin]
    by_cases hpending : e.bPendingDLE = true
    · simp only [hpending, if_true]
      repeat' split
      all_goals simp [Reads, handleFrame_flags]
    · rw [if_neg hpending]
      split <;> simp [Reads, hin, hpending]

theorem Reads.transduce (h : e.Reads) (cs : List UInt8) :
    (transduce (hear crc8 garbage) e cs).1.Reads := by
  induction cs generalizing e with
  | nil => exact h
  | cons c cs ih => exact ih (h.feed crc8 garbage c)

theorem Collects.transduce (hreads : e.Reads) (h : e.Collects cs) (line : List UInt8) :
    (transduce (hear crc8 garbage) e line).1.Collects (cs ++ line) := by
  induction line generalizing e cs with
  | nil => simpa [Pipeline.transduce] using h
  | cons c line ih =>
      have hbyte : (Emulator.feed crc8 garbage e c).1.Collects (cs ++ [c]) := by
        cases hin : e.bInFrame with
        | true => exact h.feed_inside crc8 garbage hin c
        | false => exact h.feed_outside crc8 garbage hin (hreads.bPendingDLE hin) c
      have hrest := ih (hreads.feed crc8 garbage c) hbyte
      rwa [List.append_assoc, List.singleton_append] at hrest

theorem handled_append (xs ys : List UInt8) :
    handled crc8 garbage e (xs ++ ys) = handled crc8 garbage e xs ++
      handled crc8 garbage (transduce (hear crc8 garbage) e xs).1 ys := by
  simp [handled, transduce_append]

/-- A stuffed body inside a frame is collected. -/
theorem hear_stuff (cs : List UInt8) (hin : e.bInFrame = true) (hno : e.bPendingDLE = false) :
    transduce (hear crc8 garbage) e (stuff DLE cs) = ({ e with frame := e.frame ++ cs }, []) := by
  induction cs generalizing e with
  | nil => simp [Pipeline.transduce]
  | cons c cs ih =>
      have hbyte : transduce (hear crc8 garbage) e (stuff1 DLE c) =
          ({ e with frame := e.frame ++ [c] }, []) := by
        by_cases hc : c = DLE
        · subst hc
          simp [Pipeline.transduce, hear, completed, Emulator.feed, hin, hno, ETX_ne_DLE]
        · simp [stuff1_of_ne hc, Pipeline.transduce, hear, completed, Emulator.feed, hin, hno, Ne.symm hc]
      have hrest := ih (e := { e with frame := e.frame ++ [c] }) hin hno
      rw [stuff_cons, transduce_append, hbyte, hrest]
      simp

/-- The parser behind a DLE STX: a frame begins, or they are data behind a DLE that is
pending. -/
def begun (e : Emulator) : Emulator :=
  { e with
    frame := if e.bPendingDLE = true then e.frame ++ [DLE, STX] else []
    bInFrame := true
    bPendingDLE := false
    bLastWasDLE := e.bInFrame && e.bLastWasDLE }

theorem hear_dle_stx (h : e.Reads) :
    transduce (hear crc8 garbage) e [DLE, STX] = (e.begun, []) := by
  by_cases hpending : e.bPendingDLE = true
  · simp [Pipeline.transduce, hear, completed, Emulator.feed, begun, h hpending, hpending,
      ETX_ne_DLE, Ne.symm STX_ne_DLE]
  · by_cases hin : e.bInFrame = true
    · simp [Pipeline.transduce, hear, completed, Emulator.feed, begun, hin, hpending, ETX_ne_STX,
        Ne.symm STX_ne_DLE]
    · simp [Pipeline.transduce, hear, completed, Emulator.feed, begun, hin, hpending, STX_ne_DLE,
        Ne.symm STX_ne_DLE]

/-- All of a frame but its ETX: nothing is handled yet. -/
theorem hear_body (h : e.Reads) (cs : List UInt8) :
    transduce (hear crc8 garbage) e ([DLE, STX] ++ stuff DLE cs ++ [DLE]) =
      ({ e.begun with frame := e.begun.frame ++ cs, bPendingDLE := true }, []) := by
  have hbegin := hear_dle_stx crc8 garbage h
  have hstuff := hear_stuff crc8 garbage (e := e.begun) cs rfl rfl
  rw [transduce_append, transduce_append, hbegin, hstuff]
  simp [Pipeline.transduce, hear, completed, Emulator.feed, begun]

/-- A whole frame is handled, behind what has been collected if a DLE is pending, and the
parser has forgotten everything then. -/
theorem handled_whole (h : e.Reads) (cs : List UInt8) :
    handled crc8 garbage e ([DLE, STX] ++ stuff DLE cs ++ [DLE, ETX]) = [e.begun.frame ++ cs] ∧
      (transduce (hear crc8 garbage) e ([DLE, STX] ++ stuff DLE cs ++ [DLE, ETX])).1.Fresh := by
  have hsplit : [DLE, STX] ++ stuff DLE cs ++ [DLE, ETX] =
      [DLE, STX] ++ stuff DLE cs ++ [DLE] ++ [ETX] := by simp
  rw [handled, hsplit, transduce_append, hear_body crc8 garbage h cs]
  have hparser := handleFrame_flags crc8 garbage { e.begun with
    frame := e.begun.frame ++ cs, bInFrame := false, bPendingDLE := false, bLastWasDLE := false }
  constructor
  · simp [Pipeline.transduce, hear, completed, begun]
  · simpa [Fresh, Pipeline.transduce, hear, Emulator.feed, begun, Ne.symm ETX_ne_DLE] using hparser

/-- A frame that is cut off is not handled. -/
theorem handled_cut (h : e.Reads) (cs : List UInt8) {n : Nat}
    (hn : n < ([DLE, STX] ++ stuff DLE cs ++ [DLE, ETX]).length) :
    handled crc8 garbage e (([DLE, STX] ++ stuff DLE cs ++ [DLE, ETX]).take n) = [] := by
  have hsplit : [DLE, STX] ++ stuff DLE cs ++ [DLE, ETX] =
      [DLE, STX] ++ stuff DLE cs ++ [DLE] ++ [ETX] := by simp
  rw [hsplit, List.length_append, List.length_singleton] at hn
  rw [hsplit, List.take_append_of_le_length (by omega)]
  have hbody : handled crc8 garbage e ([DLE, STX] ++ stuff DLE cs ++ [DLE]) = [] := by
    rw [handled, hear_body crc8 garbage h cs]
  rw [← List.take_append_drop n ([DLE, STX] ++ stuff DLE cs ++ [DLE]), handled_append] at hbody
  exact (List.append_eq_nil_iff.mp hbody).1

end Emulator

/-! ## several threads on the port -/

namespace Wire

variable {x : External} {ι : Type}

/-- What a call is meant to tell. -/
def Call.content (c : Call x) : List UInt8 := c.frame.content x.crc8

/-- The frames the adapter handles of a sequence of calls; `torn` are the calls cut off
since the last frame that was whole. -/
inductive Heard (x : External) : List (Send x ι) → List (Send x ι) → List (List UInt8) → Prop where
  | nil (torn : List (Send x ι)) : Heard x torn [] []
  -- a whole frame is handled as it was sent
  | intact {torn : List (Send x ι)} {d : Send x ι} {ds : List (Send x ι)} {frames : List (List UInt8)}
      (hwhole : d.written = d.call.buffer.length) (hrest : Heard x [] ds frames) :
      Heard x torn (d :: ds) (d.call.content :: frames)
  -- or together with what those that were cut off have begun, up to half a pair of DLEs
  | behind {torn : List (Send x ι)} {d : Send x ι} {ds : List (Send x ι)} {frames : List (List UInt8)}
      {before lost : List UInt8}
      (hlost : torn.flatMap Send.bytes = before ++ [DLE, STX] ++ stuff DLE lost ++ [DLE])
      (hwhole : d.written = d.call.buffer.length) (hrest : Heard x [] ds frames) :
      Heard x torn (d :: ds) ((lost ++ [DLE, STX] ++ d.call.content) :: frames)
  | cut {torn : List (Send x ι)} {d : Send x ι} {ds : List (Send x ι)} {frames : List (List UInt8)}
      (hcut : d.written < d.call.buffer.length) (hrest : Heard x (torn ++ [d]) ds frames) :
      Heard x torn (d :: ds) frames

/-- One frame is handled for each call that wrote all of its own. -/
theorem Heard.length_eq {torn ds : List (Send x ι)} {frames : List (List UInt8)}
    (h : Heard x torn ds frames) :
    frames.length = ds.countP fun d => d.written == d.call.buffer.length := by
  induction h with
  | nil => rfl
  | intact hwhole _ ih => simp [hwhole, ih]
  | behind _ hwhole _ ih => simp [hwhole, ih]
  | cut hcut _ ih => simp [Nat.ne_of_lt hcut, ih]

/-- If none is cut off, all are handled as they were sent. -/
theorem Heard.exact {ds : List (Send x ι)} {frames : List (List UInt8)} (h : Heard x [] ds frames)
    (hwhole : ∀ d ∈ ds, d.written = d.call.buffer.length) :
    frames = ds.map fun d => d.call.content := by
  generalize htorn : [] = torn at h
  induction h with
  | nil => rfl
  | intact _ _ ih =>
      rw [List.map_cons, ih (fun d hd => hwhole d (List.mem_cons_of_mem _ hd)) rfl]
  | behind hlost => simp [← htorn] at hlost
  | cut hcut => exact absurd (hwhole _ List.mem_cons_self) (Nat.ne_of_lt hcut)

/-- The frames of all senders have type codes and channel 0. -/
theorem Call.bytes_eq (hcode : ∀ t, x.code t ≠ DLE) (c : Call x) :
    c.buffer = [DLE, STX] ++ stuff DLE (c.content) ++ [DLE, ETX] := by
  rw [c.buffer_eq, Call.content]
  refine Frame.bytes_eq_stuff x.crc8 _ ?_ ?_
  · cases c with
    | mk sender seq payload sendData => cases sender <;> exact hcode _
  · cases c with
    | mk sender seq payload sendData => cases sender <;> exact (by decide : (0 : UInt8) ≠ DLE)

/-- What the emulator handles of a sequence of calls. -/
theorem heard_of_collects {garbage : Mem UInt8} (hcode : ∀ t, x.code t ≠ DLE) (ds : List (Send x ι))
    (hle : ∀ d ∈ ds, d.written ≤ d.call.buffer.length) (e : Emulator) (he : e.Reads)
    (torn : List (Send x ι)) (htorn : e.Collects (torn.flatMap Send.bytes)) :
    Heard x torn ds (e.handled x.crc8 garbage (ds.flatMap Send.bytes)) := by
  induction ds generalizing e torn with
  | nil => exact .nil torn
  | cons d ds ih =>
      have hds := fun d' hd' => hle d' (List.mem_cons_of_mem d hd')
      rw [List.flatMap_cons, Emulator.handled_append]
      by_cases hwhole : d.written = d.call.buffer.length
      · have hbytes : Send.bytes d = [DLE, STX] ++ stuff DLE (d.call.content) ++ [DLE, ETX] := by
          rw [Send.bytes, hwhole, List.take_length, d.call.bytes_eq hcode]
        obtain ⟨hframe, hfresh⟩ := Emulator.handled_whole x.crc8 garbage he (d.call.content)
        have hrest := ih hds _ hfresh.reads [] hfresh.collects
        rw [hbytes, hframe]
        by_cases hpending : e.bPendingDLE = true
        · obtain ⟨before, hlost⟩ := htorn.inside (he hpending)
          rw [if_pos hpending] at hlost
          simpa [Emulator.begun, hpending] using Heard.behind hlost hwhole hrest
        · simpa [Emulator.begun, hpending] using Heard.intact hwhole hrest
      · have hcut := Nat.lt_of_le_of_ne (hle d List.mem_cons_self) hwhole
        have hnone : e.handled x.crc8 garbage (Send.bytes d) = [] := by
          rw [Send.bytes, d.call.bytes_eq hcode] at *
          exact Emulator.handled_cut x.crc8 garbage he _ hcut
        have hcollects := htorn.transduce x.crc8 garbage he (Send.bytes d)
        rw [hnone]
        refine .cut hcut (ih hds _ (he.transduce x.crc8 garbage _) (torn ++ [d]) ?_)
        simpa using hcollects

/-- What the adapter hears of the port. -/
structure AdapterHears (x : External) (frames : List (List UInt8)) (s : State x ι) : Prop where
  heard : Heard x [] (s.sends ++ s.pending) frames
  once : frames.length =
    (s.sends ++ s.pending).countP fun d => d.written == d.call.buffer.length
  exact : (∀ d ∈ s.sends, d.rv = true) → s.pending = [] →
    frames = s.sends.map fun d => d.call.content

/-- **A failed write costs one more frame at most**: whatever the threads do and wherever
the port fails, the adapter handles one frame for each that was written whole, in order, and
only one behind frames that were cut off may be damaged, by what was written of them. -/
theorem adapter_hears [DecidableEq ι] (garbage : Mem UInt8) (hcode : ∀ t, x.code t ≠ DLE)
    (s : State x ι) (hs : (machine x ι).Reachable s) :
    AdapterHears x (Emulator.new.handled x.crc8 garbage s.line) s := by
  have hI := wireInv_of_reachable hs
  have hheard : Heard x [] (s.sends ++ s.pending)
      (Emulator.new.handled x.crc8 garbage s.line) := by
    rw [hI.line]
    have hfresh : Emulator.new.Fresh := ⟨rfl, rfl, rfl⟩
    exact heard_of_collects hcode _ hI.written_le _ hfresh.reads [] hfresh.collects
  exact {
    heard := hheard
    once := hheard.length_eq
    exact := fun hall hnone => by
      rw [hnone, List.append_nil] at hheard
      refine hheard.exact fun d hd => ?_
      have hwritten := hI.written d hd
      exact Nat.le_antisymm hwritten.1 (hwritten.2 (hall d hd)) }

/-- The first frame is cut off within a pair of DLEs, and spoils the second. -/
theorem adapter_hears_torn : ∃ s : State .vscp Unit,
    AdapterHears .vscp [[251, 0, DLE, STX, 0, 0, 7, 0, 0, 22]] s ∧ s.sends.length = 2 := by
  let answer : Call .vscp := ⟨.sendACK, DLE, fun _ => 0, fun _ => 0, trivial⟩
  let noop : Call .vscp := ⟨.sendNoopFrame, 7, fun _ => 0, fun _ => 0, trivial⟩
  let run : List (Act .vscp Unit) :=
    [.port true, .call () answer] ++ List.replicate 6 (.go ()) ++ [.fails (), .go ()] ++
      [.call () noop] ++ List.replicate 12 (.go ())
  obtain ⟨s, hs, hp⟩ := Machine.exists_reachableWhen (M := machine .vscp Unit)
    (c := fun _ _ => True) run
    (fun s => s.sends.length == 2 && Emulator.new.handled External.vscp.crc8 (fun _ => 0) s.line ==
      [[251, 0, DLE, STX, 0, 0, 7, 0, 0, 22]])
    rfl (by decide +kernel)
  simp only [Bool.and_eq_true, beq_iff_eq] at hp
  have hhears := adapter_hears (x := .vscp) (fun _ => 0) (fun t => by cases t <;> decide) s hs
  rw [hp.2] at hhears
  exact ⟨s, hhears, hp.1⟩

end Wire

end Can4vscp
