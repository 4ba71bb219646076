import Wwan.Lib.RingWindow
import Wwan.Sipc.SmsgOpen

/-!
# Messages arrive in order

A message goes through two queues: the ring that both sides share, where `smsg_send` puts it,
and the cache of its channel, where `sipc_process_all_msg` of the other side puts it and
`smsg_recv` finds it. The pointers of both run freely in 32 bits.

`smsg_msg_process` drops a message that it does not know the type of, and one whose cache is
full. A call of `smsg_recv` that a signal interrupts while it waits for `rxlock` goes on
without it.
-/

namespace Wwan.Sipc

open Wwan Bytes

/-! ## The link -/

/-- The number of messages in the ring: `SMSG_TXBUF_SIZE / sizeof(struct smsg)`. -/
def smsgTxbufSize : ℕ := 128

/-- The ring: `txbuf` of one side and `rxbuf` of the other. -/
structure SmsgRing where
  /-- `txbuf_rdptr`. -/
  rdptr : ℕ
  /-- `txbuf_wrptr`. -/
  wrptr : ℕ
  /-- The messages at `txbuf_addr`. -/
  buf : ℕ → Smsg

/-- A message that came to `smsg_msg_process`. -/
structure Arrival where
  /-- The message. -/
  msg : Smsg
  /-- The number of messages in the cache when it came. -/
  held : ℕ
  deriving DecidableEq

/-- A call of `smsg_send`. -/
structure SendResult where
  /-- What it returns. -/
  rval : ℤ
  /-- The number of messages in the ring when it looked, or failed before. -/
  held : ℕ
  /-- Whether it took `txpinlock`. -/
  locked : Bool
  deriving DecidableEq

/-- The messages in the ring. -/
def SmsgRing.window (r : SmsgRing) : List Smsg :=
  Ring.window (2 ^ 32) smsgTxbufSize r.buf r.rdptr r.wrptr

/-- The messages in a cache. -/
def SmsgChannel.window (ch : SmsgChannel) : List Smsg :=
  Ring.window (2 ^ 32) smsgCacheNr ch.caches ch.rdptr ch.wrptr

/-- The messages in the cache of a channel. -/
def SmsgIpc.cached (ipc : SmsgIpc) (i : Fin smsgValidChNr) : List Smsg :=
  (ipc.channels i).elim [] SmsgChannel.window

/-- A side that sends and one that receives. -/
structure SmsgLink where
  /-- The ring. -/
  ring : SmsgRing
  /-- The message that was written, if a call of `smsg_send` has `txpinlock`. -/
  tx : Option Smsg
  /-- Whether `sipc_process_all_msg` is done with the first message. -/
  processed : Bool
  /-- The side that receives. -/
  ipc : SmsgIpc
  /-- The messages that were read by calls of `smsg_recv`. -/
  rx : Fin smsgValidChNr → List Smsg
  /-- Whether `rxlock` is taken. -/
  rxlock : Fin smsgValidChNr → Bool
  /-- The messages that were sent. -/
  sent : List Smsg
  /-- The messages that were processed. -/
  arrivals : List Arrival
  /-- The messages that were received. -/
  received : Fin smsgValidChNr → List Smsg
  /-- The calls of `smsg_send`. -/
  sends : List SendResult

/-- The steps of a link. -/
inductive LinkStep
  | /-- `smsg_send` fails before it looks at the ring. -/
    sendFail (err : ℤ)
  | /-- `smsg_send` takes `txpinlock`, and writes the message or fails. -/
    sendLock (msg : Smsg)
  | /-- It moves the pointer and returns. -/
    sendDone
  | /-- `sipc_process_all_msg` processes the first message. -/
    process
  | /-- It moves the pointer. -/
    processDone
  | /-- `smsg_recv` reads the first message of the cache, with `rxlock` or without. -/
    recvRead (i : Fin smsgValidChNr) (interrupted : Bool)
  | /-- It moves the pointer and returns. -/
    recvDone (i : Fin smsgValidChNr) (msg : Smsg)
  deriving DecidableEq

namespace SmsgLink

variable (s : SmsgLink)

/-- The messages that are still in the ring. -/
def inRing : List Smsg := if s.processed then s.ring.window.tail else s.ring.window

/-- `smsg_send` fails. -/
def sendFail (err : ℤ) : SmsgLink :=
  { s with sends := ⟨err, u32 (s.ring.wrptr - s.ring.rdptr), false⟩ :: s.sends }

/-- `smsg_send` takes `txpinlock`. The difference is compared as unsigned, like
`txbuf_size`. -/
def sendLock (msg : Smsg) : SmsgLink :=
  let held := u32 (s.ring.wrptr - s.ring.rdptr)
  if smsgTxbufSize ≤ held then { s with sends := ⟨ebusy, held, true⟩ :: s.sends }
  else
    { s with
      ring :=
        { s.ring with
          buf := Function.update s.ring.buf (s.ring.wrptr % smsgTxbufSize) msg }
      tx := some msg
      sends := ⟨0, held, true⟩ :: s.sends }

/-- `smsg_send` moves the pointer. -/
def sendDone (msg : Smsg) : SmsgLink :=
  { s with
    ring := { s.ring with wrptr := u32 (s.ring.wrptr + 1) }
    tx := none
    sent := s.sent ++ [msg] }

/-- `sipc_process_all_msg` processes the first message. -/
def process : SmsgLink :=
  let msg := s.ring.buf (s.ring.rdptr % smsgTxbufSize)
  match smsgMsgProcess false s.ipc msg, arrayAt smsgValidChNr (channel2index msg.channel) with
  | .ok ipc, .ok i =>
    { s with
      ipc := ipc
      processed := true
      arrivals := s.arrivals ++ [⟨msg, (s.ipc.cached i).length⟩] }
  | _, _ => s

/-- `sipc_process_all_msg` moves the pointer. -/
def processDone : SmsgLink :=
  { s with
    ring := { s.ring with rdptr := u32 (s.ring.rdptr + 1) }
    processed := false }

/-- `smsg_recv` reads a message. -/
def recvRead (i : Fin smsgValidChNr) (interrupted : Bool) (ch : SmsgChannel) : SmsgLink :=
  { s with
    rx := Function.update s.rx i (ch.front :: s.rx i)
    rxlock := Function.update s.rxlock i (s.rxlock i || !interrupted) }

/-- `smsg_recv` moves the pointer. -/
def recvDone (i : Fin smsgValidChNr) (msg : Smsg) (ch : SmsgChannel) : SmsgLink :=
  { s with
    ipc := { s.ipc with channels := Function.update s.ipc.channels i (some ch.pop) }
    rx := Function.update s.rx i ((s.rx i).erase msg)
    rxlock := Function.update s.rxlock i false
    received := Function.update s.received i (s.received i ++ [msg]) }

end SmsgLink

/-- The channel of a message. -/
def Smsg.on (i : Fin smsgValidChNr) (msg : Smsg) : Bool := channel2index msg.channel = i

namespace LinkStep

/-- When a step may be taken, with the channels that are open. -/
def enabled (opened : Fin smsgValidChNr → Bool) (s : SmsgLink) : LinkStep → Bool
  | sendFail err => err < 0
  | sendLock msg => s.tx = none ∧ ∃ i, opened i = true ∧ msg.on i = true
  | sendDone => s.tx.isSome
  | process => s.processed = false ∧ s.ring.wrptr ≠ s.ring.rdptr
  | processDone => s.processed
  | recvRead i interrupted =>
    (s.ipc.channels i).any (fun ch ↦ ch.wrptr ≠ ch.rdptr) ∧
      (s.rxlock i = false ∨ interrupted = true)
  | recvDone i msg => (s.ipc.channels i).isSome ∧ msg ∈ s.rx i

/-- What a step does. -/
def act (s : SmsgLink) : LinkStep → SmsgLink
  | sendFail err => s.sendFail err
  | sendLock msg => s.sendLock msg
  | sendDone =>
    match s.tx with
    | some msg => s.sendDone msg
    | none => s
  | process => s.process
  | processDone => s.processDone
  | recvRead i interrupted =>
    match s.ipc.channels i with
    | some ch => s.recvRead i interrupted ch
    | none => s
  | recvDone i msg =>
    match s.ipc.channels i with
    | some ch => s.recvDone i msg ch
    | none => s

end LinkStep

/-- A link with nothing on its way. -/
def SmsgLink.start (opened : Fin smsgValidChNr → Bool) (ptr : ℕ) (cachePtr : Fin smsgValidChNr → ℕ)
    (mem : ℕ → Smsg) : SmsgLink :=
  { ring := ⟨ptr, ptr, mem⟩
    tx := none
    processed := false
    ipc :=
      { channels := fun i ↦ if opened i then some ⟨cachePtr i, cachePtr i, mem⟩ else none
        busy := fun _ ↦ 0
        states := fun i ↦ if opened i then .opened else .unused }
    rx := fun _ ↦ []
    rxlock := fun _ ↦ false
    sent := []
    arrivals := []
    received := fun _ ↦ []
    sends := [] }

/-- The runs of a link. -/
def linkSystem (opened : Fin smsgValidChNr → Bool) (ptr : ℕ) (cachePtr : Fin smsgValidChNr → ℕ)
    (mem : ℕ → Smsg) : System SmsgLink LinkStep :=
  { init := .start opened ptr cachePtr mem
    enabled := fun s e ↦ e.enabled opened s
    next := fun s e ↦ e.act s }

/-! ## Both queues -/

/-- Whether a message that came is stored. -/
def Arrival.kept (a : Arrival) : Bool := a.held ≠ smsgCacheNr ∧ a.msg.type < smsgTypeNr

/-- The messages of a channel that came. -/
def SmsgLink.arrived (s : SmsgLink) (i : Fin smsgValidChNr) : List Arrival :=
  s.arrivals.filter fun a ↦ a.msg.on i

/-- What holds of the cache of a channel between any two steps. -/
structure CacheInv (s : SmsgLink) (i : Fin smsgValidChNr) (ch : SmsgChannel) : Prop where
  channel : s.ipc.channels i = some ch
  rd : ch.rdptr < 2 ^ 32
  wr : ch.wrptr < 2 ^ 32
  room : ch.window.length ≤ smsgCacheNr
  /-- What has been read is the first message, by the only call that has `rxlock`. -/
  reading : s.rx i = [] ∨ s.rxlock i = true ∧ ∃ msg, s.rx i = [msg] ∧ ch.window.head? = some msg
  fifo : s.received i ++ ch.window = ((s.arrived i).filter Arrival.kept).map Arrival.msg

/-- What holds of a link between any two steps. -/
structure LinkInv (opened : Fin smsgValidChNr → Bool) (s : SmsgLink) : Prop where
  rd : s.ring.rdptr < 2 ^ 32
  wr : s.ring.wrptr < 2 ^ 32
  room : s.ring.window.length ≤ smsgTxbufSize
  /-- What has been written is in the slot behind the ring. -/
  writing : ∀ msg, s.tx = some msg → s.ring.window.length < smsgTxbufSize ∧
    s.ring.buf (s.ring.wrptr % smsgTxbufSize) = msg ∧ ∃ i, opened i = true ∧ msg.on i = true
  processed : s.processed = true → s.ring.window ≠ []
  known : ∀ msg ∈ s.ring.window, ∃ i, opened i = true ∧ msg.on i = true
  order : s.sent = s.arrivals.map Arrival.msg ++ s.inRing
  sends : ∀ r ∈ s.sends, r.locked = true → (r.rval = ebusy ↔ r.held = smsgTxbufSize)
  caches : ∀ i, opened i = true → ∃ ch, CacheInv s i ch

section Rings

variable {ch : SmsgChannel} {r : SmsgRing} {i : Fin smsgValidChNr} {ipc : SmsgIpc} {msg : Smsg}

theorem cache_dvd : smsgCacheNr ∣ 2 ^ 32 := by decide

theorem txbuf_dvd : smsgTxbufSize ∣ 2 ^ 32 := by decide

/-- The cache with one more message. -/
def SmsgChannel.push (ch : SmsgChannel) (msg : Smsg) : SmsgChannel :=
  { ch with
    wrptr := u32 (ch.wrptr + 1)
    caches := Function.update ch.caches (ch.wrptr % smsgCacheNr) msg }

theorem length_cache (ch : SmsgChannel) :
    ch.window.length = Ring.dist (2 ^ 32) ch.rdptr ch.wrptr := Ring.length_window _

theorem length_ring (r : SmsgRing) :
    r.window.length = Ring.dist (2 ^ 32) r.rdptr r.wrptr := Ring.length_window _

theorem window_pushMsg (msg : Smsg) (hrd : ch.rdptr < 2 ^ 32) (hwr : ch.wrptr < 2 ^ 32)
    (h : ch.window.length < smsgCacheNr) : (ch.push msg).window = ch.window ++ [msg] := by
  rw [length_cache] at h
  dsimp only [SmsgChannel.push, SmsgChannel.window]
  rw [u32_succ]
  exact Ring.window_push ch.caches cache_dvd hrd hwr msg h (by decide)

theorem window_popMsg (hrd : ch.rdptr < 2 ^ 32) (hwr : ch.wrptr < 2 ^ 32)
    (h : ch.wrptr ≠ ch.rdptr) : ch.window = ch.front :: ch.pop.window := by
  dsimp only [SmsgChannel.pop, SmsgChannel.window]
  rw [u32_succ]
  exact Ring.window_succ_left ch.caches cache_dvd hrd hwr h

/-- A message comes for an open channel. -/
theorem receive_eq (ipc : SmsgIpc) (msg : Smsg) (hch : ipc.channels i = some ch)
    (hrd : ch.rdptr < 2 ^ 32) (hwr : ch.wrptr < 2 ^ 32) (hroom : ch.window.length ≤ smsgCacheNr) :
    ipc.receive i msg =
      if (Arrival.kept ⟨msg, ch.window.length⟩) then
        { ipc with channels := Function.update ipc.channels i (some (ch.push msg)) }
      else ipc := by
  have hfull : (smsgCacheNr : ℤ) ≤ int32 (ch.wrptr - ch.rdptr) ↔
      ch.window.length = smsgCacheNr := by
    rw [length_cache] at hroom ⊢
    rw [Ring.int32_sub hrd hwr (hroom.trans_lt (by decide))]
    omega
  unfold SmsgIpc.receive
  rw [hch]
  by_cases htype : smsgTypeNr ≤ msg.type
  · rw [if_pos htype, if_neg]
    simp [Arrival.kept, htype]
  · rw [if_neg htype]
    dsimp only
    by_cases hlen : ch.window.length = smsgCacheNr
    · rw [if_pos (hfull.mpr hlen), if_neg]
      simp [Arrival.kept, hlen]
    · rw [if_neg (mt hfull.mp hlen), if_pos]
      · rfl
      · simp [Arrival.kept, hlen, UInt8.not_le.mp htype]

/-- What a message does to the channels. -/
theorem channels_process (msg : Smsg) (hch : ipc.channels i = some ch)
    (hrd : ch.rdptr < 2 ^ 32) (hwr : ch.wrptr < 2 ^ 32) (hroom : ch.window.length ≤ smsgCacheNr) :
    (((ipc.addBusy i 1).receive i msg).addBusy i (-1)).channels =
      if (Arrival.kept ⟨msg, ch.window.length⟩) then
        Function.update ipc.channels i (some (ch.push msg))
      else ipc.channels := by
  have hreceive := receive_eq (ipc.addBusy i 1) msg hch hrd hwr hroom
  dsimp only [SmsgIpc.addBusy] at hreceive ⊢
  rw [hreceive]
  split <;> rfl

theorem cached_eq (hch : ipc.channels i = some ch) : ipc.cached i = ch.window := by
  unfold SmsgIpc.cached
  rw [hch, Option.elim_some]

end Rings

section Steps

variable {opened : Fin smsgValidChNr → Bool} {s : SmsgLink} {i : Fin smsgValidChNr}
  {ch : SmsgChannel} {msg : Smsg}

/-- A step that has nothing to do with the caches. -/
theorem CacheInv.congr {s' : SmsgLink} (h : CacheInv s i ch)
    (hipc : s'.ipc.channels i = s.ipc.channels i) (hrx : s'.rx i = s.rx i)
    (hlock : s'.rxlock i = s.rxlock i) (hreceived : s'.received i = s.received i)
    (harrived : s'.arrived i = s.arrived i) : CacheInv s' i ch :=
  { channel := hipc.trans h.channel
    rd := h.rd
    wr := h.wr
    room := h.room
    reading := by
      rw [hrx, hlock]
      exact h.reading
    fifo := by
      rw [hreceived, harrived]
      exact h.fifo }

theorem LinkInv.sendFail (h : LinkInv opened s) (err : ℤ) : LinkInv opened (s.sendFail err) :=
  { h with
    sends := List.forall_mem_cons.mpr ⟨fun hlocked ↦ (by cases hlocked), h.sends⟩
    caches := fun i hi ↦ by
      obtain ⟨ch, hch⟩ := h.caches i hi
      exact ⟨ch, hch.congr rfl rfl rfl rfl rfl⟩ }

/-- The ring has room for the message, or it is full. -/
theorem LinkInv.sendLock (h : LinkInv opened s) (hmsg : ∃ i, opened i = true ∧ msg.on i = true) :
    LinkInv opened (s.sendLock msg) := by
  have hheld := Ring.u32_sub h.rd h.wr
  have hroom := h.room
  rw [length_ring] at hroom
  unfold SmsgLink.sendLock
  dsimp only
  rw [hheld]
  split
  · rename_i hfull
    refine { h with sends := List.forall_mem_cons.mpr ⟨fun _ ↦ ?_, h.sends⟩, caches := ?_ }
    · exact iff_of_true rfl (by dsimp only; omega)
    · intro i hi
      obtain ⟨ch, hch⟩ := h.caches i hi
      exact ⟨ch, hch.congr rfl rfl rfl rfl rfl⟩
  · rename_i hfull
    have hlt : Ring.dist (2 ^ 32) s.ring.rdptr s.ring.wrptr < smsgTxbufSize := not_le.mp hfull
    have hwindow : SmsgRing.window { s.ring with
        buf := Function.update s.ring.buf (s.ring.wrptr % smsgTxbufSize) msg } =
        s.ring.window :=
      Ring.window_update _ _ (Ring.wt_notMem_live txbuf_dvd h.rd h.wr hlt)
    refine
      { h with
        room := ?_
        writing := ?_
        processed := ?_
        known := ?_
        order := ?_
        sends := List.forall_mem_cons.mpr ⟨fun _ ↦ ?_, h.sends⟩
        caches := ?_ }
    · rw [hwindow]
      exact h.room
    · intro msg' heq
      cases heq
      rw [hwindow, length_ring]
      exact ⟨hlt, Function.update_self .., hmsg⟩
    · rw [hwindow]
      exact h.processed
    · rw [hwindow]
      exact h.known
    · have horder := h.order
      unfold SmsgLink.inRing at horder ⊢
      dsimp only
      rw [hwindow]
      exact horder
    · refine iff_of_false (by simp [ebusy]) ?_
      dsimp only
      omega
    · intro i hi
      obtain ⟨ch, hch⟩ := h.caches i hi
      exact ⟨ch, hch.congr rfl rfl rfl rfl rfl⟩

/-- The message that was sent is in the ring. -/
theorem LinkInv.sendDone (h : LinkInv opened s) (htx : s.tx = some msg) :
    LinkInv opened (s.sendDone msg) := by
  obtain ⟨hlen, hbuf, hmsg⟩ := h.writing msg htx
  have hlt := hlen
  rw [length_ring] at hlt
  have hwindow : SmsgRing.window { s.ring with wrptr := u32 (s.ring.wrptr + 1) } =
      s.ring.window ++ [msg] := by
    rw [u32_succ, ← hbuf]
    exact Ring.window_succ_right _ txbuf_dvd h.rd h.wr hlt (by decide)
  refine
    { h with
      wr := ?_
      room := ?_
      writing := by simp [SmsgLink.sendDone]
      processed := ?_
      known := ?_
      order := ?_
      caches := ?_ }
  · dsimp only [SmsgLink.sendDone]
    exact u32_lt _
  · dsimp only [SmsgLink.sendDone]
    rw [hwindow, List.length_append, List.length_singleton]
    exact hlen
  · dsimp only [SmsgLink.sendDone]
    rw [hwindow]
    simp
  · dsimp only [SmsgLink.sendDone]
    rw [hwindow]
    intro msg' hmem
    rcases List.mem_append.mp hmem with hmem | hmem
    · exact h.known msg' hmem
    · rw [List.mem_singleton.mp hmem]
      exact hmsg
  · have hring : (s.sendDone msg).inRing = s.inRing ++ [msg] := by
      dsimp only [SmsgLink.inRing, SmsgLink.sendDone]
      rw [hwindow]
      split
      · rename_i hproc
        exact List.tail_append_of_ne_nil (h.processed hproc)
      · rfl
    rw [hring, ← List.append_assoc]
    dsimp only [SmsgLink.sendDone]
    rw [h.order]
  · intro i hi
    obtain ⟨ch, hch⟩ := h.caches i hi
    exact ⟨ch, hch.congr rfl rfl rfl rfl rfl⟩

/-- The first message of the ring. -/
theorem LinkInv.window_cons (h : LinkInv opened s) (hne : s.ring.wrptr ≠ s.ring.rdptr) :
    s.ring.window = s.ring.buf (s.ring.rdptr % smsgTxbufSize) ::
      SmsgRing.window { s.ring with rdptr := u32 (s.ring.rdptr + 1) } := by
  dsimp only [SmsgRing.window]
  rw [u32_succ]
  exact Ring.window_succ_left s.ring.buf txbuf_dvd h.rd h.wr hne

/-- What `sipc_process_all_msg` does with a message of an open channel. -/
theorem process_eq (hmsg : s.ring.buf (s.ring.rdptr % smsgTxbufSize) = msg)
    (hidx : channel2index msg.channel = i) (hch : s.ipc.channels i = some ch) :
    s.process =
      { s with
        ipc := ((s.ipc.addBusy i 1).receive i msg).addBusy i (-1)
        processed := true
        arrivals := s.arrivals ++ [⟨msg, ch.window.length⟩] } := by
  unfold SmsgLink.process
  dsimp only
  rw [hmsg, smsgMsgProcess_eq hidx, arrayAt_channel2index hidx]
  dsimp only
  rw [cached_eq hch]

theorem arrived_append (s : SmsgLink) (a : Arrival) (j : Fin smsgValidChNr) :
    (s.arrivals ++ [a]).filter (fun a ↦ a.msg.on j) =
      s.arrived j ++ bif a.msg.on j then [a] else [] := by
  unfold SmsgLink.arrived
  rw [List.filter_append, List.filter_singleton]

/-- A message that comes for a channel is stored or not. -/
theorem CacheInv.process (h : CacheInv s i ch) (hon : msg.on i = true) :
    ∃ ch', CacheInv
      { s with
        ipc := ((s.ipc.addBusy i 1).receive i msg).addBusy i (-1)
        processed := true
        arrivals := s.arrivals ++ [⟨msg, ch.window.length⟩] } i ch' := by
  have harrived := arrived_append s ⟨msg, ch.window.length⟩ i
  rw [hon, cond_true] at harrived
  have hchannels := channels_process msg h.channel h.rd h.wr h.room
  have hfifo := h.fifo
  by_cases hkept : Arrival.kept ⟨msg, ch.window.length⟩ = true
  · rw [if_pos hkept] at hchannels
    have hlen : ch.window.length < smsgCacheNr :=
      lt_of_le_of_ne h.room (of_decide_eq_true hkept).1
    have hpush := window_pushMsg msg h.rd h.wr hlen
    refine ⟨ch.push msg, ?_, h.rd, ?_, ?_, ?_, ?_⟩
    · dsimp only
      rw [hchannels, Function.update_self]
    · dsimp only [SmsgChannel.push]
      exact u32_lt _
    · rw [hpush, List.length_append, List.length_singleton]
      exact hlen
    · rcases h.reading with hnone | ⟨hlock, msg', hrx, hhead⟩
      · exact .inl hnone
      · refine .inr ⟨hlock, msg', hrx, ?_⟩
        rw [hpush, List.head?_append, hhead, Option.some_or]
    · unfold SmsgLink.arrived
      dsimp only
      rw [harrived, List.filter_append, List.map_append, ← hfifo, hpush, List.append_assoc,
        List.filter_singleton, hkept]
      rfl
  · rw [if_neg hkept] at hchannels
    refine ⟨ch, ?_, h.rd, h.wr, h.room, h.reading, ?_⟩
    · dsimp only
      rw [hchannels]
      exact h.channel
    · unfold SmsgLink.arrived
      dsimp only
      rw [harrived, List.filter_append, List.filter_singleton, Bool.eq_false_of_not_eq_true hkept,
        cond_false, List.append_nil]
      exact hfifo

/-- What is processed goes to the cache of its channel. -/
theorem LinkInv.process (h : LinkInv opened s) (hproc : s.processed = false)
    (hne : s.ring.wrptr ≠ s.ring.rdptr) : LinkInv opened s.process := by
  have hcons := h.window_cons hne
  have hmem : s.ring.buf (s.ring.rdptr % smsgTxbufSize) ∈ s.ring.window := by
    rw [hcons]
    exact List.mem_cons_self
  obtain ⟨i, hi, hon⟩ := h.known _ hmem
  obtain ⟨ch, hch⟩ := h.caches i hi
  rw [process_eq rfl (of_decide_eq_true hon) hch.channel]
  refine { h with processed := ?_, order := ?_, caches := ?_ }
  · intro _
    rw [hcons]
    exact List.cons_ne_nil _ _
  · have horder := h.order
    unfold SmsgLink.inRing at horder ⊢
    rw [if_neg (by rw [hproc]; decide), hcons] at horder
    dsimp only
    rw [if_pos rfl, horder, hcons, List.map_append, List.append_assoc, List.map_singleton,
      List.tail_cons, List.singleton_append]
  · intro j hj
    by_cases hji : j = i
    · subst hji
      exact hch.process hon
    · obtain ⟨ch', hch'⟩ := h.caches j hj
      have hoff : Smsg.on j (s.ring.buf (s.ring.rdptr % smsgTxbufSize)) = false := by
        rw [Smsg.on, of_decide_eq_true hon]
        exact decide_eq_false fun heq ↦ hji (Fin.ext heq.symm)
      refine ⟨ch', hch'.congr ?_ rfl rfl rfl ?_⟩
      · dsimp only
        rw [channels_process _ hch.channel hch.rd hch.wr hch.room]
        split
        · exact Function.update_of_ne hji _ _
        · rfl
      · refine (arrived_append s _ j).trans ?_
        rw [hoff, cond_false, List.append_nil]

/-- The message that was processed leaves the ring. -/
theorem LinkInv.processDone (h : LinkInv opened s) (hproc : s.processed = true) :
    LinkInv opened s.processDone := by
  have hne : s.ring.wrptr ≠ s.ring.rdptr :=
    mt (Ring.window_eq_nil_iff _ h.rd h.wr).mpr (h.processed hproc)
  have hcons := h.window_cons hne
  have hlen := congrArg List.length hcons
  rw [List.length_cons] at hlen
  dsimp only at hlen
  have hroom := h.room
  refine
    { h with
      rd := ?_
      room := ?_
      writing := ?_
      processed := by simp [SmsgLink.processDone]
      known := ?_
      order := ?_
      caches := ?_ }
  · dsimp only [SmsgLink.processDone]
    exact u32_lt _
  · dsimp only [SmsgLink.processDone]
    omega
  · intro msg htx
    obtain ⟨hlt, hbuf, hmsg⟩ := h.writing msg htx
    refine ⟨?_, hbuf, hmsg⟩
    dsimp only [SmsgLink.processDone]
    omega
  · intro msg hmem
    refine h.known msg ?_
    rw [hcons]
    exact List.mem_cons_of_mem _ hmem
  · have horder := h.order
    unfold SmsgLink.inRing at horder ⊢
    rw [if_pos hproc, hcons, List.tail_cons] at horder
    exact horder
  · intro i hi
    obtain ⟨ch, hch⟩ := h.caches i hi
    exact ⟨ch, hch.congr rfl rfl rfl rfl rfl⟩

/-- The call that has `rxlock` reads the first message. -/
theorem LinkInv.recvRead (h : LinkInv opened s) (hch : s.ipc.channels i = some ch)
    (hne : ch.wrptr ≠ ch.rdptr) (hlock : s.rxlock i = false) :
    LinkInv opened (s.recvRead i false ch) := by
  refine { h with caches := fun j hj ↦ ?_ }
  obtain ⟨ch', hch'⟩ := h.caches j hj
  by_cases hji : j = i
  · subst hji
    obtain rfl : ch' = ch := Option.some.inj (hch'.channel.symm.trans hch)
    have hnone : s.rx j = [] := by
      rcases hch'.reading with hnone | ⟨hlock', -⟩
      · exact hnone
      · rw [hlock] at hlock'
        cases hlock'
    refine ⟨ch', { hch' with reading := .inr ⟨?_, ch'.front, ?_, ?_⟩ }⟩
    · dsimp only [SmsgLink.recvRead]
      rw [Function.update_self, Bool.not_false, Bool.or_true]
    · dsimp only [SmsgLink.recvRead]
      rw [Function.update_self, hnone]
    · rw [window_popMsg hch'.rd hch'.wr hne, List.head?_cons]
  · exact ⟨ch', hch'.congr rfl (Function.update_of_ne hji _ _) (Function.update_of_ne hji _ _)
      rfl rfl⟩

/-- The message that was received leaves the cache. -/
theorem LinkInv.recvDone (h : LinkInv opened s) (hch : s.ipc.channels i = some ch)
    (hmsg : msg ∈ s.rx i) : LinkInv opened (s.recvDone i msg ch) := by
  refine { h with caches := fun j hj ↦ ?_ }
  obtain ⟨ch', hch'⟩ := h.caches j hj
  by_cases hji : j = i
  · subst hji
    obtain rfl : ch' = ch := Option.some.inj (hch'.channel.symm.trans hch)
    rcases hch'.reading with hnone | ⟨-, m, hrx, hhead⟩
    · rw [hnone] at hmsg
      cases hmsg
    · rw [hrx] at hmsg
      obtain rfl := List.mem_singleton.mp hmsg
      have hne : ch'.wrptr ≠ ch'.rdptr := by
        intro heq
        rw [SmsgChannel.window, (Ring.window_eq_nil_iff _ hch'.rd hch'.wr).mpr heq] at hhead
        cases hhead
      have hpop := window_popMsg hch'.rd hch'.wr hne
      rw [hpop, List.head?_cons] at hhead
      have hfront := Option.some.inj hhead
      have hlen := congrArg List.length hpop
      rw [List.length_cons] at hlen
      have hroom := hch'.room
      refine ⟨ch'.pop, ?_, ?_, hch'.wr, by omega, .inl ?_, ?_⟩
      · dsimp only [SmsgLink.recvDone]
        rw [Function.update_self]
      · dsimp only [SmsgChannel.pop]
        exact u32_lt _
      · dsimp only [SmsgLink.recvDone]
        rw [Function.update_self, hrx, List.erase_cons_head]
      · have hfifo := hch'.fifo
        rw [hpop, hfront] at hfifo
        dsimp only [SmsgLink.recvDone]
        rw [Function.update_self, List.append_assoc, List.singleton_append]
        exact hfifo
  · exact ⟨ch', hch'.congr (Function.update_of_ne hji _ _) (Function.update_of_ne hji _ _)
      (Function.update_of_ne hji _ _) (Function.update_of_ne hji _ _) rfl⟩

/-- No call of `smsg_recv` is interrupted while it waits for `rxlock`. -/
def LinkStep.uninterrupted : LinkStep → Prop
  | recvRead _ interrupted => interrupted = false
  | _ => True

theorem LinkInv.act (h : LinkInv opened s) {e : LinkStep} (he : e.enabled opened s = true)
    (hlocked : e.uninterrupted) : LinkInv opened (e.act s) := by
  cases e with
  | sendFail err => exact h.sendFail err
  | sendLock msg => exact h.sendLock (of_decide_eq_true he).2
  | sendDone =>
    dsimp only [LinkStep.act]
    split
    · exact h.sendDone ‹_›
    · exact h
  | process =>
    obtain ⟨hproc, hne⟩ := of_decide_eq_true he
    exact h.process hproc hne
  | processDone => exact h.processDone he
  | recvRead i interrupted =>
    obtain rfl : interrupted = false := hlocked
    obtain ⟨hany, hlock⟩ := of_decide_eq_true he
    dsimp only [LinkStep.act]
    split
    · rename_i ch hch
      rw [hch] at hany
      refine h.recvRead hch (by simpa using hany) (hlock.resolve_right (by simp))
    · exact h
  | recvDone i msg =>
    dsimp only [LinkStep.act]
    split
    · exact h.recvDone ‹_› (of_decide_eq_true he).2
    · exact h

end Steps

/-! ## Order -/

/-- What is promised of the messages of a channel. -/
structure SmsgLink.Ordered (s : SmsgLink) (i : Fin smsgValidChNr) : Prop where
  /-- What was sent has come, or is still in the ring. -/
  sent : s.sent.filter (Smsg.on i) =
    (s.arrived i).map Arrival.msg ++ s.inRing.filter (Smsg.on i)
  /-- What has come is received in order, or still in the cache, unless it was dropped. -/
  kept : s.received i ++ s.ipc.cached i = ((s.arrived i).filter Arrival.kept).map Arrival.msg

/-- What is promised of `smsg_send`, once it has `txpinlock`. -/
structure SmsgLink.SendsRight (s : SmsgLink) : Prop where
  busy : ∀ r ∈ s.sends, r.locked = true → (r.rval = ebusy ↔ r.held = smsgTxbufSize)
  /-- Nothing is stored if the ring is full. -/
  stores : ∀ msg, s.ring.window.length = smsgTxbufSize →
    (s.sendLock msg).ring = s.ring ∧ (s.sendLock msg).tx = s.tx ∧
      (s.sendLock msg).sent = s.sent

section Runs

variable {opened : Fin smsgValidChNr → Bool} {ptr : ℕ} {cachePtr : Fin smsgValidChNr → ℕ}
  {mem : ℕ → Smsg} {s : SmsgLink}

theorem LinkInv.start (hptr : ptr < 2 ^ 32) (hcache : ∀ i, cachePtr i < 2 ^ 32) :
    LinkInv opened (.start opened ptr cachePtr mem) := by
  have hempty : SmsgRing.window ⟨ptr, ptr, mem⟩ = [] :=
    (Ring.window_eq_nil_iff _ hptr hptr).mpr rfl
  refine
    { rd := hptr
      wr := hptr
      room := ?_
      writing := by simp [SmsgLink.start]
      processed := by simp [SmsgLink.start]
      known := ?_
      order := ?_
      sends := by simp [SmsgLink.start]
      caches := ?_ }
  · dsimp only [SmsgLink.start]
    rw [hempty]
    exact Nat.zero_le _
  · dsimp only [SmsgLink.start]
    rw [hempty]
    simp
  · dsimp only [SmsgLink.start, SmsgLink.inRing]
    rw [if_neg (by decide), hempty]
    rfl
  · intro i hi
    have hnil : SmsgChannel.window ⟨cachePtr i, cachePtr i, mem⟩ = [] :=
      (Ring.window_eq_nil_iff _ (hcache i) (hcache i)).mpr rfl
    refine ⟨⟨cachePtr i, cachePtr i, mem⟩, ?_, hcache i, hcache i, ?_, .inl rfl, ?_⟩
    · dsimp only [SmsgLink.start]
      rw [if_pos hi]
    · rw [hnil]
      exact Nat.zero_le _
    · rw [hnil]
      rfl

theorem LinkInv.ordered (h : LinkInv opened s) {i : Fin smsgValidChNr} (hi : opened i = true) :
    s.Ordered i := by
  obtain ⟨ch, hch⟩ := h.caches i hi
  refine ⟨?_, ?_⟩
  · rw [h.order, List.filter_append, List.filter_map]
    rfl
  · rw [cached_eq hch.channel]
    exact hch.fifo

/-- In every run the messages of each channel are received in the order they were sent, if
they are not dropped, and `smsg_send` finds out whether the ring is full. -/
theorem smsg_fifo (hptr : ptr < 2 ^ 32) (hcache : ∀ i, cachePtr i < 2 ^ 32)
    (hs : (linkSystem opened ptr cachePtr mem).Reach (fun _ e ↦ e.uninterrupted) s) :
    (∀ i, opened i = true → s.Ordered i) ∧ s.SendsRight := by
  have hinv : LinkInv opened s := by
    refine hs.invariant (I := LinkInv opened) (.start hptr hcache) ?_
    intro s e h he hlocked
    exact h.act he hlocked
  refine ⟨fun i hi ↦ hinv.ordered hi, hinv.sends, fun msg hfull ↦ ?_⟩
  rw [length_ring, ← Ring.u32_sub hinv.rd hinv.wr] at hfull
  unfold SmsgLink.sendLock
  dsimp only
  rw [if_pos hfull.ge]
  exact ⟨rfl, rfl, rfl⟩

end Runs

/-- A link with channel 4 open on both sides, and all pointers about to wrap. -/
def wrapLink : System SmsgLink LinkStep :=
  linkSystem (· = chan4) (2 ^ 32 - 1) (fun _ ↦ 2 ^ 32 - 1) fun _ ↦ ⟨0, 0, 0, 0⟩

instance (s : SmsgLink) (e : LinkStep) : Decidable (wrapLink.enabled s e) :=
  inferInstanceAs (Decidable (e.enabled (· = chan4) s = true))

instance : ∀ e : LinkStep, Decidable e.uninterrupted
  | .recvRead _ interrupted => inferInstanceAs (Decidable (interrupted = false))
  | .sendFail _ => .isTrue trivial
  | .sendLock _ => .isTrue trivial
  | .sendDone => .isTrue trivial
  | .process => .isTrue trivial
  | .processDone => .isTrue trivial
  | .recvDone _ _ => .isTrue trivial

/-- Two events of channel 4. -/
def event4 (n : UInt32) : Smsg := ⟨4, smsgTypeEvent, 0, n⟩

/-- Two messages are sent and processed, and the first one is received. -/
def twoRun : List LinkStep :=
  [.sendLock (event4 1), .sendDone, .process, .sendLock (event4 2), .sendDone, .processDone,
    .recvRead chan4 false, .process, .processDone, .recvDone chan4 (event4 1)]

/-- A message of an unknown type is sent and processed. -/
def unknownRun : List LinkStep := [.sendLock ⟨4, 17, 0, 0⟩, .sendDone, .process, .processDone]

/-- The state after some steps. -/
def wrapAfter (es : List LinkStep) : SmsgLink := wrapLink.exec wrapLink.init es

theorem twoRun_ordered :
    (wrapAfter twoRun).received chan4 = [event4 1] ∧
      (wrapAfter twoRun).ipc.cached chan4 = [event4 2] ∧
      (∀ i, decide (i = chan4) = true → (wrapAfter twoRun).Ordered i) ∧
      (wrapAfter twoRun).SendsRight :=
  ⟨by decide, by decide, @smsg_fifo (· = chan4) _ _ _ _ (by decide) (fun _ ↦ by decide)
    (System.Reach.init.exec (by decide) : wrapLink.Reach _ _)⟩

/-- A message that was sent is dropped though the cache is empty. -/
theorem smsg_unknown_dropped :
    wrapLink.Reach (fun _ _ ↦ True) (wrapAfter unknownRun) ∧
      (wrapAfter unknownRun).sent = [⟨4, 17, 0, 0⟩] ∧
      (wrapAfter unknownRun).arrived chan4 = [⟨⟨4, 17, 0, 0⟩, 0⟩] ∧
      (wrapAfter unknownRun).received chan4 ++ (wrapAfter unknownRun).ipc.cached chan4 ++
        (wrapAfter unknownRun).inRing ≠
        (((wrapAfter unknownRun).arrived chan4).filter (·.held ≠ smsgCacheNr)).map Arrival.msg :=
  ⟨System.Reach.init.exec (by decide), by decide, by decide, by decide⟩

end Wwan.Sipc
