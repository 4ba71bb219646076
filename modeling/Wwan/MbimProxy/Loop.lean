import Mathlib.Data.Finset.Insert
import Wwan.Lib.Bytes
import Wwan.MbimProxy.Routing

/-!
# `proxy_loop` and `main` of `quectel-mbim-proxy`

A round of the loop polls the device, the server socket and the clients, and then looks at the
descriptors one after the other. A client that hangs up is noticed in two ways: `poll` reports
it, or a read returns nothing. The first closes the slot of the client and goes on with the next
descriptor. The second closes the slot and then returns from `proxy_loop`, past the code
that closes the other descriptors; `main` closes the device and starts all over.
-/

namespace Wwan.MbimProxy

open Wwan Wwan.Bytes

/-! ## Descriptors -/

/-- `MBIM_OPEN_DONE`. -/
def mbimOpenDone : UInt32 := 0x80000001

/-- What `safe_close` leaves in the variable. -/
def safeClose (fd : ℤ) : ℤ := if 0 < fd then -1 else fd

/-- The descriptors that are open after `safe_close`. -/
def safeClosed (fds : Finset ℤ) (fd : ℤ) : Finset ℤ := if 0 < fd then fds.erase fd else fds

/-- The bits of `revents` that the loop looks at. -/
structure Revents where
  pollerr : Bool
  pollhup : Bool
  pollnval : Bool
  pollin : Bool
  deriving DecidableEq

/-- `revents & (POLLERR | POLLHUP | POLLNVAL)`. -/
def Revents.failed (revents : Revents) : Bool :=
  revents.pollerr || revents.pollhup || revents.pollnval

/-- What the loop is told about a descriptor, and the results of the calls it then makes. -/
structure Ready where
  revents : Revents
  /-- The result of `read`. -/
  len : ℤ
  /-- `cm_recv_buffer` after the read. -/
  buffer : MbimMessage
  /-- The result of `accept`. -/
  clientFd : ℤ
  /-- The result of `proxy_make_server`. -/
  serverFd : ℤ
  deriving DecidableEq

/-- The client behind the descriptor has ended, in one of the ways in which that can be seen. -/
def Ready.ends (r : Ready) : Prop :=
  r.revents.failed = true ∨ r.revents.pollin = true ∧ r.len ≤ 0

instance (r : Ready) : Decidable r.ends := inferInstanceAs (Decidable (_ ∨ _ ∧ _))

/-- `MBIM_OPEN_DONE_T.Status`. -/
def openDoneStatus (msg : MbimMessage) : ℕ :=
  le32 (msg.payload.getD 0 0) (msg.payload.getD 1 0) (msg.payload.getD 2 0) (msg.payload.getD 3 0)

/-! ## The loop -/

/-- Where the program is. -/
inductive Control
  | /-- In `main`, about to open the device. -/
    main
  | /-- In `proxy_loop`, with the descriptors of this round that are still to be looked at. -/
    loop (pollfds : List ℤ)
  deriving DecidableEq

/-- The variables of the program and what it has done to the outside. -/
structure Daemon where
  control : Control
  mbimDevFd : ℤ
  mbimServerFd : ℤ
  clients : Fin cmMaxClient → CmClient
  /-- The descriptors that are open. -/
  fds : Finset ℤ
  /-- What was written to which descriptor. -/
  written : List (ℤ × MbimMessage)

namespace Daemon

variable (s : Daemon)

/-- The descriptors of the clients, in the order of the slots. -/
def clientFds : List ℤ :=
  ((List.finRange cmMaxClient).map fun i ↦ (s.clients i).clientFd).filter (0 < ·)

/-- The descriptors that a round asks for. -/
def pollfds : List ℤ :=
  s.mbimDevFd :: if 0 < s.mbimServerFd then s.mbimServerFd :: s.clientFds else []

/-- The loop goes on with the other descriptors of the round. -/
def proceed (rest : List ℤ) : Daemon := { s with control := .loop rest }

/-- `proxy_loop` returns, and `main` closes the device. The server socket was in a variable
of `proxy_loop`. -/
def leave : Daemon :=
  { s with
    control := .main
    mbimDevFd := safeClose s.mbimDevFd
    mbimServerFd := -1
    fds := safeClosed s.fds s.mbimDevFd }

/-- `error:` closes the server socket and the clients first. -/
def error : Daemon :=
  { s with
    mbimServerFd := safeClose s.mbimServerFd
    clients := fun i ↦ { s.clients i with clientFd := safeClose (s.clients i).clientFd }
    fds := s.clientFds.foldl safeClosed (safeClosed s.fds s.mbimServerFd) }.leave

/-- `handle_client_connect`, with the descriptor that `accept` returns. -/
def clientConnect (fd : ℤ) : Daemon :=
  if fd < 0 then s
  else match handleClientConnect s.clients fd with
  | none => s
  | some (_, clients) => { s with clients := clients, fds := insert fd s.fds }

/-- `handle_client_disconnect`. -/
def clientDisconnect (fd : ℤ) : Daemon :=
  match findSlot s.clients (·.clientFd = fd) with
  | none => s
  | some _ =>
    { s with clients := handleClientDisconnect s.clients fd, fds := safeClosed s.fds fd }

/-- `handle_client_request`. -/
def clientRequest (fd : ℤ) (req : MbimMessage) : Daemon :=
  match handleClientRequest s.clients fd req with
  | none => s
  | some (.client fd msg) => { s with written := s.written ++ [(fd, msg)] }
  | some (.device msg) => { s with written := s.written ++ [(s.mbimDevFd, msg)] }

/-- `handle_device_response`. -/
def deviceResponse (rsp : MbimMessage) : Daemon :=
  { s with
    written := s.written ++
      (handleDeviceResponse s.clients rsp).map fun w ↦ ((s.clients w.1).clientFd, w.2) }

/-- The device has answered while there is no server socket. -/
def openDone (r : Ready) (rest : List ℤ) : Daemon :=
  if r.buffer.messageType = mbimOpenDone then
    if openDoneStatus r.buffer ≠ 0 then s.error
    else
      { s with
        mbimServerFd := r.serverFd
        fds := if 0 ≤ r.serverFd then insert r.serverFd s.fds else s.fds }.proceed rest
  else s.proceed rest

/-- The handling of one descriptor of a round. -/
def handle (fd : ℤ) (rest : List ℤ) (r : Ready) : Daemon :=
  if r.revents.failed then
    if fd = s.mbimDevFd then s.error
    else if fd = s.mbimServerFd then s.proceed rest
    else (s.clientDisconnect fd).proceed rest
  else if ¬ r.revents.pollin then s.proceed rest
  else if fd = s.mbimServerFd then (s.clientConnect r.clientFd).proceed rest
  else if r.len ≤ 0 then
    if fd = s.mbimDevFd then s.error else (s.clientDisconnect fd).leave
  else if fd = s.mbimDevFd then
    if s.mbimServerFd = -1 then s.openDone r rest
    else (s.deviceResponse r.buffer).proceed rest
  else (s.clientRequest fd r.buffer).proceed rest

/-- `main` has opened the device: the slots are cleared, the device is asked to open, and
`proxy_loop` is entered, which returns at once for descriptor 0. -/
def start (fd : ℤ) : Daemon :=
  if fd < 0 then s
  else
    let opened : Daemon :=
      { control := .loop []
        mbimDevFd := fd
        mbimServerFd := -1
        clients := fun _ ↦ ⟨0, 0⟩
        fds := insert fd s.fds
        written := s.written ++ [(fd, ⟨mbimOpenMsg, 16, 1, [0, 16, 0, 0]⟩)] }
    if 0 < fd then opened else opened.error

end Daemon

/-- What the program waits for. -/
inductive DaemonStep
  | /-- `open` of the device returns. -/
    opened (fd : ℤ)
  | /-- `poll` returns. -/
    polled (ret : ℤ)
  | /-- The next descriptor of the round is looked at. -/
    ready (r : Ready)
  deriving DecidableEq

/-- A call that makes a descriptor fails, or gives one that is not open. -/
def NewFd (s : Daemon) (fd : ℤ) : Prop := fd = -1 ∨ 0 ≤ fd ∧ fd ∉ s.fds

instance (s : Daemon) (fd : ℤ) : Decidable (NewFd s fd) :=
  inferInstanceAs (Decidable (_ ∨ _ ∧ _))

/-- Which step can come. -/
def DaemonStep.enabled (s : Daemon) : Control → DaemonStep → Prop
  | .main, .opened fd => NewFd s fd
  | .loop [], .polled _ => True
  | .loop (_ :: _), .ready r => NewFd s r.clientFd ∧ NewFd s r.serverFd
  | _, _ => False

instance (s : Daemon) : (c : Control) → (e : DaemonStep) → Decidable (e.enabled s c)
  | .main, .opened _ => inferInstanceAs (Decidable (NewFd _ _))
  | .loop [], .polled _ => inferInstanceAs (Decidable True)
  | .loop (_ :: _), .ready _ => inferInstanceAs (Decidable (_ ∧ _))
  | .main, .polled _ | .main, .ready _ | .loop [], .opened _ | .loop [], .ready _
  | .loop (_ :: _), .opened _ | .loop (_ :: _), .polled _ => inferInstanceAs (Decidable False)

/-- What a step does. -/
def DaemonStep.act (s : Daemon) : Control → DaemonStep → Daemon
  | .main, .opened fd => s.start fd
  | .loop [], .polled ret => if ret ≤ 0 then s.error else s.proceed s.pollfds
  | .loop (fd :: rest), .ready r => s.handle fd rest r
  | _, _ => s

/-- The runs of the program. -/
def daemonSystem : System Daemon DaemonStep :=
  { init :=
      { control := .main
        mbimDevFd := -1
        mbimServerFd := -1
        clients := fun _ ↦ ⟨0, 0⟩
        fds := ∅
        written := [] }
    enabled := fun s e ↦ e.enabled s s.control
    next := fun s e ↦ e.act s s.control }

instance (s : Daemon) (e : DaemonStep) : Decidable (daemonSystem.enabled s e) :=
  inferInstanceAs (Decidable (e.enabled s s.control))

end Wwan.MbimProxy
