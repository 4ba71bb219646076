import Mathlib.Data.Int.Notation
import Wwan.AtcProxy.AtChannel
import Wwan.Lib.Transition

/-!
# `quectel-atc-proxy`

Clients of a local socket send AT commands through one channel. The loop takes a command, looks up
the connection it came from, leaves a pointer to it in `current_client_fd`, and waits in
`at_send_command`. Meanwhile the reader thread passes the lines on: to that connection if there is
one, and else to all.

The loop and the reader are two threads; a step is what one of them does between two points at which
the other can come in. The reader can while the loop waits, and before and after `at_send_command`.
-/

namespace Wwan.AtcProxy

/-- `ATC_PROXY_CONNECTION`, with the address of the structure. -/
structure AtcProxyConnection where
  qnode : ℕ
  ClientFd : ℤ
  deriving DecidableEq

/-- What is sent to a connection. -/
structure Sent where
  con : ℕ
  clientFd : ℤ
  data : Line
  deriving DecidableEq

/-- Where the loop is. -/
inductive LoopState
  | /-- It polls, or does something else. -/
    poll
  | /-- A command of this connection was read and is about to be sent. -/
    calling (sender : ℕ)
  | /-- It waits in `at_send_command`. -/
    waiting (sender : ℕ)
  | /-- `at_send_command` has returned. -/
    returned (sender : ℕ)
  deriving DecidableEq

structure Proxy where
  atc_proxy_connection : List AtcProxyConnection
  /-- A pointer to a connection, which may have been freed. -/
  current_client_fd : Option ℕ
  chan : AtChannel
  loop : LoopState
  /-- The address of the next connection. -/
  fresh : ℕ
  deriving DecidableEq

namespace Proxy

variable (p : Proxy)

/-! ## The handler -/

/-- `buf` of `onUnsolicited` -/
def onUnsolicitedBuf (s : Line) (sms_pdu : Option Line) : Line :=
  s ++ "\r\n".toList ++ sms_pdu.elim [] fun pdu ↦ pdu ++ "\r\n".toList

/-- `sizeof(buf)` -/
def bufSize : ℕ := 1024

/-- The loop of `onUnsolicited`: what is left of the connections, and what was sent. A connection
is closed and freed if `send_atc_to_client` fails. -/
def broadcast (buf : Line) (fails : ℕ → Bool) :
    List AtcProxyConnection → List AtcProxyConnection × List Sent
  | [] => ([], [])
  | atc_con :: cons =>
    let rest := broadcast buf fails cons
    if 0 < atc_con.ClientFd then
      (if fails atc_con.qnode then rest.1 else atc_con :: rest.1,
        ⟨atc_con.qnode, atc_con.ClientFd, buf⟩ :: rest.2)
    else (atc_con :: rest.1, rest.2)

/-- `onUnsolicited`; it is `none` if `buf` is too small, or `current_client_fd` points to memory
that was freed. -/
def onUnsolicited (s : Line) (sms_pdu : Option Line) (fails : ℕ → Bool) :
    Option (Proxy × List Sent) :=
  let buf := onUnsolicitedBuf s sms_pdu
  if bufSize ≤ buf.length then none
  else match p.current_client_fd with
  | some con =>
    (p.atc_proxy_connection.find? fun atc_con ↦ atc_con.qnode = con).map fun atc_con ↦
      (if fails con then
          { p with
            atc_proxy_connection :=
              p.atc_proxy_connection.eraseP fun atc_con ↦ atc_con.qnode = con }
        else p,
        [⟨atc_con.qnode, atc_con.ClientFd, buf⟩])
  | none =>
    let (rest, sent) := broadcast buf fails p.atc_proxy_connection
    some ({ p with atc_proxy_connection := rest }, sent)

/-- One round of `readerLoop`. A line that announces a message is passed on with the next one, and
without the mutex. -/
def readerLoop (line line2 : Line) (fails : ℕ → Bool) : Option (Proxy × List Sent) :=
  if isSMSUnsolicited line then p.onUnsolicited line (some line2) fails
  else
    let (chan, action) := p.chan.processLine line
    match action with
    | .unsolicited => { p with chan }.onUnsolicited line none fails
    | .nothing | .write _ => some ({ p with chan }, [])

/-! ## The loop -/

/-- `accept_atc_connection`. `accept` may fail and return -1; so may `malloc`. -/
def acceptAtcConnection (clientfd : ℤ) (malloc : Bool) : Proxy :=
  if malloc then
    { p with
      atc_proxy_connection := p.atc_proxy_connection ++ [⟨p.fresh, clientfd⟩]
      fresh := p.fresh + 1 }
  else p

/-- The first connection with a descriptor. -/
def connection (clientfd : ℤ) : Option AtcProxyConnection :=
  p.atc_proxy_connection.find? fun atc_con ↦ atc_con.ClientFd = clientfd

def cleanupAtcConnection (clientfd : ℤ) : Proxy :=
  match p.connection clientfd with
  | none => p
  | some atc_con =>
    { p with
      atc_proxy_connection :=
        p.atc_proxy_connection.eraseP fun atc_con ↦ atc_con.ClientFd = clientfd
      current_client_fd :=
        if p.current_client_fd = some atc_con.qnode then none else p.current_client_fd }

/-- A command was read from `pollfds[ne].fd`. The connection is looked up by `pollfds[nevents].fd`,
which is behind the descriptors that were polled. -/
def readCommand (sender : AtcProxyConnection) (pollfdsNevents : ℤ) : Proxy :=
  { p with
    current_client_fd :=
      ((p.connection pollfdsNevents).map (·.qnode)).or p.current_client_fd
    loop := .calling sender.qnode }

end Proxy

/-- What the threads do. -/
inductive AtcEvent
  | accept (clientfd : ℤ) (malloc : Bool)
  | /-- A client has gone. -/
    cleanup (clientfd : ℤ)
  | /-- A command is read from a client. -/
    command (clientfd : ℤ) (pollfdsNevents : ℤ)
  | /-- `at_send_command` takes the mutex and writes the command. -/
    write (written : Bool)
  | /-- The wait of `at_send_command` returns. -/
    wake (timedOut readerClosed : Bool)
  | /-- `current_client_fd = NULL` -/
    clear
  | /-- The reader has a line, or two; it cannot send to the clients that fail. -/
    line (line line2 : Line) (fails : ℕ → Bool)

namespace Proxy

/-- The event can come. Descriptors are given by the kernel: one that is open is not given again,
and zero was taken before the device was opened. -/
def Enabled (p : Proxy) : AtcEvent → Prop
  | .accept clientfd _ =>
    p.loop = .poll ∧ (clientfd = -1 ∨
      0 < clientfd ∧ ∀ atc_con ∈ p.atc_proxy_connection, atc_con.ClientFd ≠ clientfd)
  | .cleanup clientfd | .command clientfd _ =>
    p.loop = .poll ∧ 0 < clientfd ∧ (p.connection clientfd).isSome
  | .write _ => ∃ sender, p.loop = .calling sender
  | .wake _ _ => ∃ sender, p.loop = .waiting sender
  | .clear => ∃ sender, p.loop = .returned sender
  | .line _ _ _ => True

/-- What was sent in a round of the reader. -/
def step (p : Proxy) : AtcEvent → Option (Proxy × List Sent)
  | .accept clientfd malloc => some (p.acceptAtcConnection clientfd malloc, [])
  | .cleanup clientfd => some (p.cleanupAtcConnection clientfd, [])
  | .command clientfd pollfdsNevents =>
    (p.connection clientfd).map fun sender ↦ (p.readCommand sender pollfdsNevents, [])
  | .write written =>
    match p.loop with
    | .calling sender =>
      let (chan, waits) := p.chan.startCommand .noResult none none written
      some ({ p with chan, loop := if waits then .waiting sender else .returned sender }, [])
    | _ => none
  | .wake timedOut readerClosed =>
    match p.loop with
    | .waiting sender =>
      let (chan, waits) := p.chan.wakeCommand timedOut readerClosed
      some ({ p with chan, loop := if waits then .waiting sender else .returned sender }, [])
    | _ => none
  | .clear => some ({ p with current_client_fd := none, loop := .poll }, [])
  | .line line line2 fails => p.readerLoop line line2 fails

end Proxy

/-- The proxy with its server socket, before the first client; after a step that is undefined,
nothing is known. -/
def atcSystem : System Proxy AtcEvent where
  init :=
    { atc_proxy_connection := []
      current_client_fd := none
      chan := .idle
      loop := .poll
      fresh := 0 }
  enabled := Proxy.Enabled
  next p e := ((p.step e).map Prod.fst).getD p

end Wwan.AtcProxy
