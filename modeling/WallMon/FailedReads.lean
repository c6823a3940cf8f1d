import WallMon.HostileStreams

/-!
# Failed reads

A `recv` that fails returns -1. `_ReadCallback` keeps it in an `unsigned int` and accounts
for it before it looks at it: `BytesWritten` gets -1, and the tests for an error never hold.
With an empty buffer the assertion of `BytesWritten` fails. With any other the last byte
that was received is forgotten, and the rest of the stream is decoded without it. So no
failed read leaves the connection as it was (`failedRead_not_intact`).
-/

namespace WallMon

/-- Forget the last byte. -/
def ByteFifo.forgetLast (f : ByteFifo) : ByteFifo where
  pending := f.pending.dropLast
  capacity := f.capacity
  fits := (List.length_dropLast ▸ Nat.sub_le _ _ : f.pending.dropLast.length ≤ _).trans f.fits

namespace ByteBuffer

variable {b : ByteBuffer} {f : ByteFifo}

/-- Nothing is stored. -/
theorem store_nil (h : b.WellFormed) : b.store [] = .ok b := by
  have hhead : 0 ≤ b.head := h.tail_nonneg.trans h.tail_le
  have hfits : b.head + ([] : List UInt8).length ≤ b.buffer.length := by
    rw [h.length_eq]
    simpa using h.head_le
  rw [store, CArray.write_ok hhead hfits, ok_bind]
  simp
  rfl

/-- **`BytesWritten(-1)`** fails with an empty buffer. -/
theorem bytesWritten_neg_one_empty (h : b.Represents f) (hempty : f.pending = []) :
    b.bytesWritten (-1) = .error .assertion := by
  have hsize := h.size_eq
  obtain ⟨h0, h1, h2, h3, h4, h5⟩ := h.wellFormed
  rw [hempty, List.length_nil] at hsize
  have hfails : cassert (-1 ≤ b.capacity ∧ b.size + -1 ≥ 0) = .error .assertion :=
    if_neg fun hassert => by omega
  rw [bytesWritten, CInt.add_ok ⟨by omega, by omega⟩, ok_bind,
    CInt.add_ok ⟨by omega, by omega⟩, ok_bind, hfails, error_bind]

/-- **`BytesWritten(-1)`** takes the byte off that was written last. -/
theorem bytesWritten_neg_one (h : b.Represents f) (hne : f.pending ≠ []) :
    ∃ b', b.bytesWritten (-1) = .ok b' ∧ b'.Represents f.forgetLast := by
  have hpos := List.length_pos_of_ne_nil hne
  have hsize := h.size_eq
  obtain ⟨h0, h1, h2, h3, h4, h5⟩ := h.wellFormed
  refine ⟨⟨b.buffer, b.capacity, b.size + -1, b.head + -1, b.tail⟩, ?_, ?_⟩
  · rw [bytesWritten, CInt.add_ok ⟨by omega, by omega⟩, ok_bind,
      CInt.add_ok ⟨by omega, by omega⟩, ok_bind, cassert_ok ⟨by omega, by omega⟩, ok_bind]
    rfl
  · have hlength : f.forgetLast.pending.length = f.pending.length - 1 := List.length_dropLast
    refine .of_fields h0 ?_ ?_ ?_ h4 h.capacity_eq h5 ?_
    · dsimp only
      omega
    · dsimp only
      omega
    · dsimp only
      omega
    · have htake := congrArg (List.take (f.pending.length - 1)) h.take_eq
      rw [List.take_take, Nat.min_eq_left (Nat.sub_le _ _)] at htake
      rw [hlength]
      exact htake.trans List.dropLast_eq_take.symm

end ByteBuffer

namespace DataSink

variable {ι : Type} {w : ι} {s : SinkState ι} {f : ByteFifo}

/-! ## The callback -/

/-- The rest of the callback once `recv` has returned: what it returned is accounted for
before it is looked at. -/
def afterRecv (w : ι) (received : RecvResult) : SinkM ι Connection := do
  let numBytesReceived := received.numBytesReceived
  onBuf (·.bytesWritten (CInt.ofUnsigned numBytesReceived))
  if numBytesReceived < 0 then
    return .kept
  if numBytesReceived ≤ 0 then
    return .deleted
  readLoop w ((← get).buf.getBytesAvailable.toNat + 1)
  return .kept

/-- The callback, if `recv` stores nothing. -/
theorem readCallback_nothing (w : ι) (h : s.buf.Represents f) (received : RecvResult)
    (hstored : received.stored = []) :
    ∃ b, b.Represents f ∧
      readCallback w false received s = afterRecv w received { s with buf := b } := by
  obtain ⟨b, hdefrag, hrep, -⟩ := ByteBuffer.defragment_represents h
  have hleft := hrep.wellFormed.getContinuousBytesLeft
  refine ⟨b, hrep, ?_⟩
  rw [readCallback, if_neg Bool.false_ne_true, bind_ok (onBuf_ok hdefrag), get_bind,
    bind_ok (eval_ok hleft _), hstored, bind_ok (onBuf_ok (ByteBuffer.store_nil hrep.wellFormed))]
  rfl

/-- A connection that the peer closed is deleted. -/
theorem readCallback_closed (h : s.buf.Represents f) :
    ∃ s', readCallback w false .closed s = .ok .deleted s' := by
  obtain ⟨b, hrep, heq⟩ := readCallback_nothing w h .closed rfl
  have hsize := hrep.size_eq
  obtain ⟨h0, h1, h2, h3, h4, h5⟩ := hrep.wellFormed
  have hwritten : b.bytesWritten 0 = .ok { b with size := b.size + 0, head := b.head + 0 } := by
    rw [ByteBuffer.bytesWritten, CInt.add_ok ⟨by omega, by omega⟩, ok_bind,
      CInt.add_ok ⟨by omega, by omega⟩, ok_bind, cassert_ok ⟨by omega, by omega⟩, ok_bind]
    rfl
  exact ⟨_, heq.trans (bind_ok (onBuf_ok hwritten))⟩

/-- With an empty buffer, the assertion fails. -/
theorem readCallback_error_empty (h : s.buf.Represents f) (hempty : f.pending = []) :
    ∃ s', readCallback w false .error s = .error .assertion s' := by
  obtain ⟨b, hrep, heq⟩ := readCallback_nothing w h .error rfl
  have hfails : onBuf (·.bytesWritten (-1)) { s with buf := b } =
      .error .assertion { s with buf := b } := by
    rw [onBuf, ByteBuffer.bytesWritten_neg_one_empty hrep hempty]
  exact ⟨_, heq.trans (bind_error hfails)⟩

/-- With any other buffer, the loop is run without the last byte. -/
theorem readCallback_error_loop (h : s.buf.Represents f) (hne : f.pending ≠ []) :
    ∃ b n, readCallback w false .error s =
        (readLoop w n >>= fun _ => pure .kept) { s with buf := b } ∧
      b.Represents f.forgetLast ∧ f.forgetLast.pending.length < n := by
  obtain ⟨b, hrep, heq⟩ := readCallback_nothing w h .error rfl
  obtain ⟨b', hwritten, hrep'⟩ := ByteBuffer.bytesWritten_neg_one hrep hne
  refine ⟨b', b'.getBytesAvailable.toNat + 1, ?_, hrep', ?_⟩
  · exact heq.trans (bind_ok (onBuf_ok hwritten))
  · rw [ByteBuffer.getBytesAvailable, hrep'.size_eq]
    omega

/-- **The last byte is lost**, and nothing is routed, if the callback returns. -/
theorem readCallback_error_ok (h : s.buf.Represents f) (hne : f.pending ≠ [])
    (hcap : 4 < f.capacity) (hpart : ¬wire.Ready f.pending) {k : Connection} {s' : SinkState ι}
    (hok : readCallback w false .error s = .ok k s') :
    ∃ f', s'.buf.Represents f' ∧ f'.pending = f.pending.dropLast ∧ f.capacity ≤ f'.capacity ∧
      s'.calls = s.calls := by
  obtain ⟨b, n, heq, hrep, hlt⟩ := readCallback_error_loop (w := w) h hne
  have hpart' : ¬wire.Ready f.pending.dropLast := by
    intro hready
    apply hpart
    rw [← List.dropLast_concat_getLast hne]
    exact Framing.Ready.append wire hready _
  have hrest : wire.rest f.forgetLast.pending = f.pending.dropLast :=
    wire.rest_of_not_ready hpart'
  by_cases hsafe : HeaderSafe f.forgetLast.capacity (wire.rest f.forgetLast.pending)
  · obtain ⟨s'', f', cs, hloop, hrep', hpending, hcap', hcalls, -, -, hframes, -⟩ :=
      readLoop_safe (w := w) (s := { s with buf := b }) hrep hlt hsafe
    rw [heq, bind_ok hloop] at hok
    obtain ⟨-, rfl⟩ := EStateM.Result.ok.inj hok
    have hnone : cs = [] := by
      have hnil : wire.frames f.forgetLast.pending = [] := wire.frames_of_not_ready hpart'
      rw [hnil] at hframes
      exact List.map_eq_nil_iff.mp hframes
    refine ⟨f', hrep', hpending.trans hrest, ?_, ?_⟩
    · rw [hcap']
      exact le_capacityAfter _ _
    · rw [hcalls, hnone, List.append_nil]
  · obtain ⟨e, s'', hloop, -⟩ :=
      readLoop_faults (w := w) (s := { s with buf := b }) hrep hlt hcap hsafe
    rw [heq, bind_error hloop] at hok
    cases hok

/-! ## Connections whose reads may fail -/

/-- One connection under arbitrary input, where reads may fail. -/
def connection (w : ι) : TransitionSystem (Outcome ι) RecvResult where
  init r := ∃ s, Fresh s ∧ r = .ok .kept s
  step r received r' := ∃ s, r = .ok .kept s ∧
    (∀ bs, received = .bytes bs → Receivable s bs) ∧ r' = readCallback w false received s

/-- **The connection is as it was**: the callback returns, nothing was routed, and neither the
bytes nor the indices have changed. -/
def Intact (s : SinkState ι) (r : Outcome ι) : Prop :=
  ∃ s', r = .ok .kept s' ∧ s'.calls = s.calls ∧ s'.buf.contents = s.buf.contents ∧
    s'.buf.head = s.buf.head ∧ s'.buf.tail = s.buf.tail ∧ s'.buf.size = s.buf.size

/-- A connection that is open is between two callbacks, with no complete message. -/
def Waiting (r : Outcome ι) : Prop :=
  ∀ s, r = .ok .kept s → ∃ f, BetweenCallbacks s f ∧ ¬wire.Ready f.pending

theorem Waiting.received (h : BetweenCallbacks s f) {bs : List UInt8} (hbs : Receivable s bs) :
    Waiting (readCallback w false (.bytes bs) s) := by
  intro s' hok
  by_cases hsafe : HeaderSafe f.capacity (wire.rest (f.pending ++ bs))
  · obtain ⟨s'', f', hrun, hbetween, hpending⟩ := h.safe w hbs hsafe
    obtain ⟨-, rfl⟩ := EStateM.Result.ok.inj (hrun.symm.trans hok)
    refine ⟨f', hbetween, ?_⟩
    rw [hpending]
    exact wire.not_ready_rest _
  · obtain ⟨hne, hfit⟩ := h.receivable hbs
    obtain ⟨e, s'', hrun, -⟩ :=
      readCallback_faults (w := w) h.represents hne hfit h.capacity_gt hsafe
    cases hrun.symm.trans hok

theorem Waiting.failed (h : BetweenCallbacks s f) (hpart : ¬wire.Ready f.pending) :
    Waiting (readCallback w false .error s) := by
  intro s' hok
  have hne : f.pending ≠ [] := by
    intro hempty
    obtain ⟨s'', hfault⟩ := readCallback_error_empty (w := w) h.represents hempty
    cases hfault.symm.trans hok
  obtain ⟨f', hrep, hpending, hcap, hcalls⟩ :=
    readCallback_error_ok h.represents hne h.capacity_gt hpart hok
  refine ⟨f', ⟨hrep, ?_, h.capacity_gt.trans_le hcap, by rw [hcalls]; exact h.calls⟩, ?_⟩
  · have hroom := h.room
    rw [hpending, List.length_dropLast]
    omega
  · rw [hpending]
    intro hready
    apply hpart
    rw [← List.dropLast_concat_getLast hne]
    exact Framing.Ready.append wire hready _

/-- Every state of an open connection waits for bytes. -/
theorem waiting_of_reachable {r : Outcome ι} (h : (connection w).Reachable r) : Waiting r := by
  refine h.invariant (I := Waiting) ?_ ?_
  · rintro r ⟨s, hfresh, rfl⟩ s' heq
    obtain ⟨-, rfl⟩ := EStateM.Result.ok.inj heq
    exact ⟨_, .of_fresh hfresh, fun hready => absurd hready.1 (by decide)⟩
  · rintro r received r' - ih ⟨s, rfl, hreceived, rfl⟩
    obtain ⟨f, hbetween, hpart⟩ := ih s rfl
    cases received with
    | bytes bs => exact .received hbetween (hreceived bs rfl)
    | error => exact .failed hbetween hpart
    | closed =>
      intro s' hok
      obtain ⟨s'', hdeleted⟩ := readCallback_closed (w := w) hbetween.represents
      cases hdeleted.symm.trans hok

/-- **No failed read leaves the connection intact.** With an empty buffer the assertion of
`BytesWritten` fails; with any other the last byte is lost, unless the loop faults. -/
theorem failedRead_not_intact (w : ι) {s : SinkState ι}
    (h : (connection w).Reachable (.ok .kept s)) :
    ¬Intact s (readCallback w false .error s) ∧
      (s.buf.contents = [] → ∃ s', readCallback w false .error s = .error .assertion s') ∧
      ∀ k s', readCallback w false .error s = .ok k s' →
        s'.buf.contents = s.buf.contents.dropLast ∧ s'.calls = s.calls := by
  obtain ⟨f, hbetween, hpart⟩ := waiting_of_reachable h s rfl
  have hcontents := hbetween.represents.contents_eq
  have hempty : s.buf.contents = [] →
      ∃ s', readCallback w false .error s = .error .assertion s' := by
    intro hnil
    exact readCallback_error_empty hbetween.represents (hcontents.symm.trans hnil)
  have hlost : ∀ k s', readCallback w false .error s = .ok k s' →
      s.buf.contents ≠ [] ∧ s'.buf.contents = s.buf.contents.dropLast ∧ s'.calls = s.calls := by
    intro k s' hok
    have hne : s.buf.contents ≠ [] := by
      intro hnil
      obtain ⟨s'', hfault⟩ := hempty hnil
      cases hfault.symm.trans hok
    rw [hcontents] at hne ⊢
    obtain ⟨f', hrep, hpending, -, hcalls⟩ :=
      readCallback_error_ok hbetween.represents hne hbetween.capacity_gt hpart hok
    exact ⟨hne, hrep.contents_eq.trans hpending, hcalls⟩
  refine ⟨?_, hempty, fun k s' hok => (hlost k s' hok).2⟩
  rintro ⟨s', hok, -, hsame, -⟩
  obtain ⟨hne, hdropped, -⟩ := hlost _ s' hok
  have hpos := List.length_pos_of_ne_nil hne
  have hlength := congrArg List.length (hsame.symm.trans hdropped)
  rw [List.length_dropLast] at hlength
  omega

/-- Three bytes are received, and the next read fails: the third byte is lost. -/
theorem failedRead_three_bytes : ∃ s : SinkState Unit,
    (connection ()).Reachable (.ok .kept s) ∧ s.buf.contents = [0, 0, 0] ∧
      ¬Intact s (readCallback () false .error s) := by
  obtain ⟨s, hfresh⟩ := exists_fresh
  have hs := BetweenCallbacks.of_fresh hfresh
  have hbs : Receivable s [0, 0, 0] := hfresh.receivable (by decide) (by decide)
  have hstart : (connection ()).Reachable (.ok .kept s) := .start ⟨s, hfresh, rfl⟩
  have hempty : (ByteFifo.empty 102400).pending = [] := rfl
  have hrest : wire.rest ((ByteFifo.empty 102400).pending ++ [0, 0, 0]) = [0, 0, 0] := by
    rw [hempty, wire.rest_of_not_ready (by decide)]
    rfl
  obtain ⟨s', f', hrun, hbetween, hpending⟩ := hs.safe () hbs (by
    rw [hrest]
    exact fun hlong => absurd hlong (by decide))
  have hreceived : ∀ bs, RecvResult.bytes [0, 0, 0] = .bytes bs → Receivable s bs := by
    intro bs heq
    rw [← RecvResult.bytes.inj heq]
    exact hbs
  have hnext : (connection ()).Reachable (.ok .kept s') :=
    hstart.next ⟨s, rfl, hreceived, hrun.symm⟩
  refine ⟨s', hnext, ?_, (failedRead_not_intact () hnext).1⟩
  rw [hbetween.represents.contents_eq, hpending, hrest]

/-- A read that fails on a fresh connection violates the assertion. -/
theorem fresh_failedRead_asserts : ∃ s s' : SinkState Unit, Fresh s ∧
    readCallback () false .error s = .error .assertion s' ∧
      ¬Intact s (readCallback () false .error s) := by
  obtain ⟨s, hfresh⟩ := exists_fresh
  obtain ⟨s', hfault⟩ :=
    readCallback_error_empty (w := ()) (BetweenCallbacks.of_fresh hfresh).represents rfl
  refine ⟨s, s', hfresh, hfault, ?_⟩
  rintro ⟨s'', hok, -⟩
  cases hfault.symm.trans hok

end DataSink

end WallMon
