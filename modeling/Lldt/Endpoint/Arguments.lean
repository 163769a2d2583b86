import Lldt.Data.Bytes
import Lldt.Data.Digits
import Lldt.Dpdk.Materializer

namespace Lldt.Transport

open Lldt.Data.Bytes
open Lldt.Data.Digits
open Lldt.Dpdk

/-! The command line of an endpoint.  What the source prints before it gives up is
the error. -/

/-- The bytes of a string, without the terminator. -/
abbrev CString := List UInt8

def cstring (text : String) : CString := text.toList.map Char.toUInt8

structure EndpointConfig where
  shmName : CString := []
  slots : UInt32 := 0
  localIpv4Be : UInt32 := 0
  peerIpv4Be : UInt32 := 0
  dataPort : UInt16 := 0
  batchingEnabled : Bool := false
  nextHopMac : EtherAddr := .replicate 6 0
  deriving DecidableEq

/-- `std::tolower` in the C locale. -/
def tolower (c : UInt8) : UInt8 :=
  if 'A'.toUInt8 ≤ c ∧ c ≤ 'Z'.toUInt8 then c + 32 else c

def equalsIgnoreCase (lhs rhs : CString) (isValue : Bool) : Bool :=
  if lhs.length ≠ rhs.length then false
  else if isValue = false ∧ (lhs[0]? ≠ rhs[0]? ∨ lhs[1]? ≠ rhs[1]?) then false
  else
    let start := if isValue then 0 else 2
    ((lhs.zip rhs).drop start).all fun pair => tolower pair.1 = tolower pair.2

/-! `std::from_chars` for an unsigned type: digits only, no sign and no prefix. -/

inductive Errc where
  | none
  | invalidArgument
  | resultOutOfRange
  deriving DecidableEq, Repr

structure FromCharsResult where
  ptr : Nat
  ec : Errc
  value : Nat
  deriving DecidableEq, Repr

def digit (base : Nat) (c : UInt8) : Option Nat :=
  let value :=
    if '0'.toUInt8 ≤ c ∧ c ≤ '9'.toUInt8 then some (c - '0'.toUInt8).toNat
    else if 'a'.toUInt8 ≤ tolower c ∧ tolower c ≤ 'z'.toUInt8 then
      some ((tolower c - 'a'.toUInt8).toNat + 10)
    else none
  value.filter fun value => value < base

def fromChars (width base : Nat) (text : CString) : FromCharsResult :=
  let digits := text.takeWhile fun c => (digit base c).isSome
  let value := valueOf (digit base) base digits
  if digits = [] then { ptr := 0, ec := .invalidArgument, value := 0 }
  else if value < 2 ^ width then { ptr := digits.length, ec := .none, value := value }
  else { ptr := digits.length, ec := .resultOutOfRange, value := 0 }

def parseNumFromString (width : Nat) (str : CString) (size : Nat) (name : CString) (base : Nat) :
    Except CString Nat :=
  let result := fromChars width base (str.take size)
  if result.ec ≠ .none ∨ result.ptr ≠ size then
    .error (cstring "[ERROR]: Invalid " ++ name ++ cstring ": " ++ str ++ cstring ".\n")
  else .ok result.value

def usage : CString := cstring <|
  "[ERROR]: Usage: ./executable\n" ++
  "<EAL args>\n" ++
  "--\n" ++
  "--shm <name>\n" ++
  "--slots <N>\n" ++
  "--local-ip <IPv4>\n" ++
  "--peer-ip <IPv4>\n" ++
  "--data-port <port>\n" ++
  "--next-hop-mac <xx:xx:xx:xx:xx:xx>\n" ++
  "[--batching]\n"

def flagAlreadySet (flagName : CString) : CString :=
  cstring "[ERROR]: --" ++ flagName ++ cstring " flag already set.\n"

/-- The closure `next`, given the argument after the current one. -/
def nextArg : Option CString → Except CString CString
  | none => .error usage
  | some value =>
      if 1 < value.length ∧ value[0]? = some '-'.toUInt8 ∧ value[1]? = some '-'.toUInt8 then
        .error usage
      else .ok value

/-- `parseIpArg`: the flag and the member it sets.  `inetPton` stands for
`inet_pton(AF_INET, ..)` and yields `s_addr`. -/
def parseIpArg (inetPton : CString → Option UInt32) (ipFlag : Bool) (flagName : CString)
    (next : Except CString CString) : Except CString (Bool × UInt32) :=
  if ipFlag then .error (flagAlreadySet flagName)
  else do
    let ipArg ← next
    match inetPton ipArg with
    | none => .error (cstring "[ERROR]: Invalid " ++ flagName ++ cstring " address.\n")
    | some address => .ok (true, address)

def parsePortArg (portFlag : Bool) (flagName : CString) (next : Except CString CString) :
    Except CString (Bool × UInt16) :=
  if portFlag then .error (flagAlreadySet flagName)
  else do
    let portArg ← next
    let number ← parseNumFromString 16 portArg portArg.length flagName 10
    let port := UInt16.ofNat number
    if port = 0 then
      .error (cstring "[ERROR]: " ++ flagName ++ cstring " value is zero: " ++ portArg ++
        cstring ".\n")
    else .ok (true, port)

structure ParseState where
  config : EndpointConfig := {}
  shmFlag : Bool := false
  slotsFlag : Bool := false
  localIpFlag : Bool := false
  peerIpFlag : Bool := false
  dataPortFlag : Bool := false
  nextHopMacFlag : Bool := false

namespace ParseState

variable (state : ParseState) (next : Except CString CString)

def parseShmArg : Except CString ParseState :=
  if state.shmFlag then .error (flagAlreadySet (cstring "shm"))
  else do
    let shmName ← next
    .ok { state with
      config := { state.config with shmName := shmName }
      shmFlag := true }

def parseSlotsArg : Except CString ParseState :=
  if state.slotsFlag then .error (flagAlreadySet (cstring "slots"))
  else do
    let slotsArg ← next
    let number ← parseNumFromString 32 slotsArg slotsArg.length (cstring "slots") 10
    let slots := UInt32.ofNat number
    if slots = 0 ∨ (slots - 1) &&& slots ≠ 0 then
      .error (cstring "[ERROR]: Slots value is zero or not power of 2: " ++ slotsArg ++
        cstring ".\n")
    else .ok { state with
      config := { state.config with slots := slots }
      slotsFlag := true }

def invalidNextHopMac (nextHopMac : CString) : CString :=
  cstring "[ERROR]: Invalid next-hop-mac argument: " ++ nextHopMac ++ cstring ".\n"

/-- One turn of the loop over the octets, which counts the zero ones. -/
def parseOctet (nextHopMac : CString) (seen : EtherAddr × Nat) (octetIdx : Nat) :
    Except CString (EtherAddr × Nat) :=
  if octetIdx < 5 ∧ nextHopMac[octetIdx * 3 + 2]? ≠ some ':'.toUInt8 then
    .error (invalidNextHopMac nextHopMac)
  else do
    let number ← parseNumFromString 8 (slice nextHopMac (octetIdx * 3) 2) 2
      (cstring "next-hop-mac") 16
    let octet := UInt8.ofNat number
    .ok (seen.1.setIfInBounds octetIdx octet, if octet = 0 then seen.2 + 1 else seen.2)

def parseNextHopMacArg : Except CString ParseState :=
  if state.nextHopMacFlag then .error (flagAlreadySet (cstring "next-hop-mac"))
  else do
    let nextHopMac ← next
    -- 6 * 2 octets + 5 ':' = 17
    if nextHopMac.length ≠ 17 then .error (invalidNextHopMac nextHopMac)
    else do
      let (octets, zeroOctetsCount) ←
        (List.range 6).foldlM (parseOctet nextHopMac) (state.config.nextHopMac, 0)
      if zeroOctetsCount = 6 then .error (cstring "[ERROR]: Zero MAC is not supported\n")
      else if octets[0] &&& 0x01 ≠ 0 then
        .error (cstring "[ERROR]: Multicast MAC is not supported.\n")
      else .ok { state with
        config := { state.config with nextHopMac := octets }
        nextHopMacFlag := true }

end ParseState

section Parse

variable (inetPton : CString → Option UInt32)

/-- The body of the loop, and whether it advanced `i` over the following argument. -/
def ParseState.parseArg (state : ParseState) (arg : CString) (following : Option CString) :
    Except CString (ParseState × Bool) :=
  let next := nextArg following
  if equalsIgnoreCase arg (cstring "--shm") false then do
    let state ← state.parseShmArg next
    .ok (state, true)
  else if equalsIgnoreCase arg (cstring "--slots") false then do
    let state ← state.parseSlotsArg next
    .ok (state, true)
  else if equalsIgnoreCase arg (cstring "--local-ip") false then do
    let (flag, address) ← parseIpArg inetPton state.localIpFlag (cstring "local-ip") next
    .ok ({ state with
      config := { state.config with localIpv4Be := address }
      localIpFlag := flag }, true)
  else if equalsIgnoreCase arg (cstring "--peer-ip") false then do
    let (flag, address) ← parseIpArg inetPton state.peerIpFlag (cstring "peer-ip") next
    .ok ({ state with
      config := { state.config with peerIpv4Be := address }
      peerIpFlag := flag }, true)
  else if equalsIgnoreCase arg (cstring "--data-port") false then do
    let (flag, port) ← parsePortArg state.dataPortFlag (cstring "data-port") next
    .ok ({ state with
      config := { state.config with dataPort := port }
      dataPortFlag := flag }, true)
  else if equalsIgnoreCase arg (cstring "--next-hop-mac") false then do
    let state ← state.parseNextHopMacArg next
    .ok (state, true)
  else if equalsIgnoreCase arg (cstring "--batching") false then
    .ok ({ state with config := { state.config with batchingEnabled := true } }, false)
  else .error (cstring "[ERROR]: Unknown argument: " ++ arg ++ cstring ".\n")

/-- The loop over the arguments from the current one on. -/
def ParseState.parseArgs (state : ParseState) : List CString → Except CString ParseState
  | [] => .ok state
  | [arg] => do
      let (state, _) ← state.parseArg inetPton arg none
      .ok state
  | arg :: following :: rest => do
      let (state, advanced) ← state.parseArg inetPton arg (some following)
      if advanced then state.parseArgs rest else state.parseArgs (following :: rest)

def tryParseEndpointConfig (argv : List CString) : Except CString EndpointConfig := do
  let state ← ParseState.parseArgs inetPton {} (argv.drop 1)
  if !state.shmFlag || !state.slotsFlag || !state.localIpFlag || !state.peerIpFlag ||
      !state.dataPortFlag || !state.nextHopMacFlag then .error usage
  else .ok state.config

end Parse

end Lldt.Transport
