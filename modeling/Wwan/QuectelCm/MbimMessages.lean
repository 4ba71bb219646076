import Wwan.Lib.Bytes
import Wwan.MbimProxy.Proxy

/-!
# MBIM messages of `quectel-cm`

What the `compose` functions of `mbim-cm.c` make, and the test of the `TransactionId` in
`mbim_send_command`.
-/

namespace Wwan.QuectelCm

open Bytes MbimProxy

/-! ## Composing -/

/-- `MBIM_COMMAND_MSG` -/
def mbimCommandMsg : UInt32 := 3

section Compose

variable (tid : UInt32)

def composeOpenCommand (maxControlTransfer : UInt32) : MbimMessage :=
  ⟨mbimOpenMsg, 16, tid, toLe32 maxControlTransfer.toNat⟩

def composeCloseCommand : MbimMessage := ⟨mbimCloseMsg, 12, tid, []⟩

/-- `compose_basic_connect_command`, with the service that
`compose_basic_connect_ext_command` and `compose_qmi_over_mbim_command` put in. -/
def composeCommand (uuid : List UInt8) (cid commandType : UInt32)
    (informationBuffer : List UInt8) : MbimMessage :=
  let len := UInt32.ofNat informationBuffer.length
  ⟨mbimCommandMsg, 48 + len, tid, toLe32 1 ++ toLe32 0 ++ uuid ++ toLe32 cid.toNat ++
    toLe32 commandType.toNat ++ toLe32 len.toNat ++ informationBuffer⟩

/-- `compose_basic_connect_command` with a length and no buffer: the header says that there is none,
and the caller fills what was allocated. -/
def composeNullCommand (uuid : List UInt8) (cid commandType : UInt32)
    (informationBuffer : List UInt8) : MbimMessage :=
  let len := UInt32.ofNat informationBuffer.length
  ⟨mbimCommandMsg, 48 + len, tid, toLe32 1 ++ toLe32 0 ++ uuid ++ toLe32 cid.toNat ++
    toLe32 commandType.toNat ++ toLe32 0 ++ informationBuffer⟩

end Compose

/-- What is composed. -/
inductive Command
  | openMsg (maxControlTransfer : UInt32)
  | closeMsg
  | commandMsg (uuid : List UInt8) (cid commandType : UInt32) (informationBuffer : List UInt8)
  | nullMsg (uuid : List UInt8) (cid commandType : UInt32) (informationBuffer : List UInt8)
  deriving DecidableEq

/-- The message. -/
def Command.compose (tid : UInt32) : Command → MbimMessage
  | openMsg maxControlTransfer => composeOpenCommand tid maxControlTransfer
  | closeMsg => composeCloseCommand tid
  | commandMsg uuid cid commandType informationBuffer =>
    composeCommand tid uuid cid commandType informationBuffer
  | nullMsg uuid cid commandType informationBuffer =>
    composeNullCommand tid uuid cid commandType informationBuffer

@[simp] theorem Command.compose_transactionId (tid : UInt32) (cmd : Command) :
    (cmd.compose tid).transactionId = tid := by
  cases cmd with
  | openMsg maxControlTransfer => rfl
  | closeMsg => rfl
  | commandMsg uuid cid commandType informationBuffer => rfl
  | nullMsg uuid cid commandType informationBuffer => rfl

/-! ## Transaction ids -/

/-- The byte order of the host. -/
inductive ByteOrder
  | littleEndian
  | bigEndian
  deriving DecidableEq

/-- `htole32` -/
def ByteOrder.htole32 : ByteOrder → UInt32 → UInt32
  | littleEndian, x => x
  | bigEndian, x => UInt32.ofNat (bswap32 x.toNat)

/-- The message that is written, and the counter after that. -/
def wrapTransactionId (order : ByteOrder) (counter : UInt32) (msg : MbimMessage) :
    MbimMessage × UInt32 :=
  -- `pRequest->TransactionId` is compared as it stands in memory
  if order.htole32 msg.transactionId = 0xFFFFFF + 1 then ({ msg with transactionId := 1 }, 2)
  else (msg, counter)

end Wwan.QuectelCm
