import Mathlib.Data.List.Basic

/-!
# `atchannel`

The reader thread takes the lines of the modem apart: while a command is pending they are answers
to it, and what no command waits for goes to the handler for unsolicited lines. In the proxy the
handler gets the final responses too.
-/

namespace Wwan.AtcProxy

/-- A C string, with a character for each byte. -/
abbrev Line := List Char

/-- `ATCommandType` -/
inductive ATCommandType
  | noResult
  | numeric
  | singleline
  | multiline
  deriving DecidableEq

/-- `ATResponse`; the intermediate lines are in reverse order. -/
structure ATResponse where
  success : Bool
  finalResponse : Option Line
  p_intermediates : List Line
  deriving DecidableEq

/-- `at_response_new` -/
def ATResponse.new : ATResponse := ⟨false, none, []⟩

/-- The command that is pending, if any. -/
structure AtChannel where
  s_atc_proxy : Bool
  s_type : ATCommandType
  s_responsePrefix : Option Line
  s_smsPDU : Option Line
  s_raw_data : Option Line
  sp_response : Option ATResponse
  deriving DecidableEq

/-- The line starts with the second string. -/
def strStartsWith : Line → Line → Bool
  | _, [] => true
  | [], _ :: _ => false
  | c :: line, d :: start => if c ≠ d then false else strStartsWith line start

def finalResponsesError : List Line :=
  ["ERROR".toList, "+CMS ERROR:".toList, "+CME ERROR:".toList, "NO CARRIER".toList,
    "NO ANSWER".toList, "NO DIALTONE".toList, "COMMAND NOT SUPPORT".toList]

def isFinalResponseError (line : Line) : Bool := finalResponsesError.any (strStartsWith line)

def finalResponsesSuccess : List Line :=
  ["OK".toList, "+QIND: \"FOTA\",\"END\",0".toList, "CONNECT".toList]

def isFinalResponseSuccess (line : Line) : Bool := finalResponsesSuccess.any (strStartsWith line)

def smsUnsoliciteds : List Line :=
  ["+CMT:".toList, "+CDS:".toList, "+CBM:".toList, "+CMTI:".toList]

def isSMSUnsolicited (line : Line) : Bool := smsUnsoliciteds.any (strStartsWith line)

/-- What `processLine` does to the outside. -/
inductive LineAction
  | nothing
  | /-- `handleUnsolicited` -/
    unsolicited
  | /-- `writeraw` or `writeCtrlZ` -/
    write (data : Line)
  deriving DecidableEq

namespace AtChannel

variable (chan : AtChannel)

/-- `handleFinalResponse`, with the result -/
def handleFinalResponse (rsp : ATResponse) (success : Bool) (line : Line) : AtChannel :=
  { chan with sp_response := some { rsp with success, finalResponse := some line } }

def addIntermediate (rsp : ATResponse) (line : Line) : AtChannel :=
  { chan with sp_response := some { rsp with p_intermediates := line :: rsp.p_intermediates } }

/-- A line that is no final response, by the type of the command. -/
def intermediate (rsp : ATResponse) (line : Line) : AtChannel × LineAction :=
  match chan.s_type with
  | .noResult => (chan, .unsolicited)
  | .numeric =>
    if rsp.p_intermediates.isEmpty ∧ line.head?.any Char.isDigit then
      (chan.addIntermediate rsp line, .nothing)
    else (chan, .unsolicited)
  | .singleline =>
    if rsp.p_intermediates.isEmpty ∧ strStartsWith line (chan.s_responsePrefix.getD []) then
      (chan.addIntermediate rsp line, .nothing)
    else (chan, .unsolicited)
  | .multiline =>
    if strStartsWith line (chan.s_responsePrefix.getD []) then
      (chan.addIntermediate rsp line, .nothing)
    else (chan, .unsolicited)

def processLine (line : Line) : AtChannel × LineAction :=
  match chan.sp_response with
  | none => (chan, .unsolicited)
  | some rsp =>
    if chan.s_raw_data.isSome ∧ line = "CONNECT".toList then
      ({ chan with s_raw_data := none }, .write (chan.s_raw_data.getD []))
    else if isFinalResponseSuccess line then
      (chan.handleFinalResponse rsp true line,
        if chan.s_atc_proxy then .unsolicited else .nothing)
    else if isFinalResponseError line then
      (chan.handleFinalResponse rsp false line,
        if chan.s_atc_proxy then .unsolicited else .nothing)
    else if chan.s_smsPDU.isSome ∧ line = "> ".toList then
      ({ chan with s_smsPDU := none }, .write (chan.s_smsPDU.getD [] ++ [Char.ofNat 26]))
    else chan.intermediate rsp line

/-- `clearPendingCommand` -/
def clearPendingCommand : AtChannel :=
  { chan with sp_response := none, s_responsePrefix := none, s_smsPDU := none }

/-- `at_send_command_full_nolock` up to the wait, and whether it gets there. -/
def startCommand (type : ATCommandType) (responsePrefix smspdu : Option Line) (written : Bool) :
    AtChannel × Bool :=
  if chan.sp_response.isSome ∨ ¬written then (chan.clearPendingCommand, false)
  else
    ({ chan with
        s_type := type
        s_responsePrefix := responsePrefix
        s_smsPDU := smspdu
        sp_response := some .new },
      true)

/-- `at_send_command_full_nolock` when the wait returns, and whether it goes on waiting. -/
def wakeCommand (timedOut readerClosed : Bool) : AtChannel × Bool :=
  if ¬timedOut ∧ ¬readerClosed ∧ chan.sp_response.all (·.finalResponse.isNone) then (chan, true)
  else (chan.clearPendingCommand, false)

/-- The channel of the proxy between commands of clients. -/
def idle : AtChannel where
  s_atc_proxy := true
  s_type := .noResult
  s_responsePrefix := none
  s_smsPDU := none
  s_raw_data := none
  sp_response := none

end AtChannel

end Wwan.AtcProxy
