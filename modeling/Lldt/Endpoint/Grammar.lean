import Lldt.Data.Filling
import Lldt.Data.RetainedLog
import Lldt.Endpoint.Arguments
import Mathlib.Data.List.Forall2
import Mathlib.Data.List.TakeWhile

namespace Lldt.Transport

open Lldt.Data.Bytes
open Lldt.Data.Digits
open Lldt.Data.Filling
open Lldt.Data.RetainedLog
open Lldt.Dpdk

/-! The grammar of the command line, stated apart from the parser. -/

inductive EndpointOption where
  | shm
  | slots
  | localIp
  | peerIp
  | dataPort
  | nextHopMac
  | batching
  deriving DecidableEq

def EndpointOption.name : EndpointOption → CString
  | .shm => cstring "--shm"
  | .slots => cstring "--slots"
  | .localIp => cstring "--local-ip"
  | .peerIp => cstring "--peer-ip"
  | .dataPort => cstring "--data-port"
  | .nextHopMac => cstring "--next-hop-mac"
  | .batching => cstring "--batching"

/-- Letters are compared without their case. -/
def EndpointOption.Spells (option : EndpointOption) (arg : CString) : Prop :=
  arg.map tolower = option.name

/-- What an option group denotes. -/
inductive Setting where
  | shm (name : CString)
  | slots (count : UInt32)
  | localIp (address : UInt32)
  | peerIp (address : UInt32)
  | dataPort (port : UInt16)
  | nextHopMac (octets : EtherAddr)
  | batching
  deriving DecidableEq

def Setting.option : Setting → EndpointOption
  | .shm _ => .shm
  | .slots _ => .slots
  | .localIp _ => .localIp
  | .peerIp _ => .peerIp
  | .dataPort _ => .dataPort
  | .nextHopMac _ => .nextHopMac
  | .batching => .batching

/-- Six octets of two hexadecimal digits, separated by colons. -/
structure MacAddress (text : CString) (octets : EtherAddr) : Prop where
  written : ∃ parts : List CString, text = [':'.toUInt8].intercalate parts ∧
    List.Forall₂ (fun part octet =>
      part.length = 2 ∧ Numeral (digit 16) 16 part octet.toNat) parts octets.toList
  nonzero : octets ≠ .replicate 6 0
  unicast : octets.get ⟨0, Nat.zero_lt_succ 5⟩ &&& 1 = 0

section Grammar

variable (inetPton : CString → Option UInt32)

/-- The value of an option denotes its setting. -/
inductive Denotes : CString → Setting → Prop
  | shm (name : CString) : Denotes name (.shm name)
  | slots {text : CString} {number : Nat} (numeral : Numeral (digit 10) 10 text number)
      (power : ∃ exponent, number = 2 ^ exponent) (bound : number < 2 ^ 32) :
      Denotes text (.slots (UInt32.ofNat number))
  | localIp {text : CString} {address : UInt32} (valid : inetPton text = some address) :
      Denotes text (.localIp address)
  | peerIp {text : CString} {address : UInt32} (valid : inetPton text = some address) :
      Denotes text (.peerIp address)
  | dataPort {text : CString} {number : Nat} (numeral : Numeral (digit 10) 10 text number)
      (positive : 1 ≤ number) (bound : number ≤ 65535) :
      Denotes text (.dataPort (UInt16.ofNat number))
  | nextHopMac {text : CString} {octets : EtherAddr} (mac : MacAddress text octets) :
      Denotes text (.nextHopMac octets)

/-- The arguments of one option: its name and a value that does not begin like an
option, or `--batching` alone. -/
inductive Group : List CString → Setting → Prop
  | valued {arg value : CString} {setting : Setting} (spells : setting.option.Spells arg)
      (plain : ¬cstring "--" <+: value) (denotes : Denotes inetPton value setting) :
      Group [arg, value] setting
  | batching {arg : CString} (spells : EndpointOption.batching.Spells arg) :
      Group [arg] .batching

structure OptionGroup where
  args : List CString
  setting : Setting
  group : Group inetPton args setting

end Grammar

/-- Each option but `--batching` is set once, and the configuration has the settings. -/
structure Determines (settings : List Setting) (config : EndpointConfig) : Prop where
  shm : entriesFor Setting.option .shm settings = [.shm config.shmName]
  slots : entriesFor Setting.option .slots settings = [.slots config.slots]
  localIp : entriesFor Setting.option .localIp settings = [.localIp config.localIpv4Be]
  peerIp : entriesFor Setting.option .peerIp settings = [.peerIp config.peerIpv4Be]
  dataPort : entriesFor Setting.option .dataPort settings = [.dataPort config.dataPort]
  nextHopMac : entriesFor Setting.option .nextHopMac settings = [.nextHopMac config.nextHopMac]
  batching : config.batchingEnabled = true ↔ Setting.batching ∈ settings

/-! Arguments and names. -/

theorem tolower_eq_dash {c : UInt8} : tolower c = '-'.toUInt8 ↔ c = '-'.toUInt8 := by
  have dash : '-'.toUInt8 = 45 := rfl
  have first : 'A'.toUInt8 = 65 := rfl
  have last : 'Z'.toUInt8 = 90 := rfl
  unfold tolower
  rw [dash, first, last]
  grind

theorem EndpointOption.exists_name (option : EndpointOption) :
    ∃ letters : CString, option.name = '-'.toUInt8 :: '-'.toUInt8 :: letters ∧
      letters.map tolower = letters := by
  cases option <;> exact ⟨_, rfl, rfl⟩

theorem EndpointOption.name_injective {first second : EndpointOption}
    (same : first.name = second.name) : first = second := by
  cases first <;> cases second <;> first | rfl | exact absurd same (by decide)

theorem all_zip_iff {lhs rhs : CString} (length : lhs.length = rhs.length) :
    ((lhs.zip rhs).all fun pair => tolower pair.1 = tolower pair.2) = true ↔
      lhs.map tolower = rhs.map tolower := by
  induction lhs generalizing rhs with
  | nil =>
      cases rhs with
      | nil => simp
      | cons _ _ => contradiction
  | cons head tail ih =>
      cases rhs with
      | nil => contradiction
      | cons other rest =>
          rw [List.length_cons, List.length_cons, Nat.add_right_cancel_iff] at length
          simp only [List.zip_cons_cons, List.all_cons, Bool.and_eq_true, decide_eq_true_eq,
            List.map_cons, List.cons.injEq, ih length]

theorem equalsIgnoreCase_iff {arg : CString} (option : EndpointOption) :
    equalsIgnoreCase arg option.name false = true ↔ option.Spells arg := by
  obtain ⟨letters, name, lower⟩ := option.exists_name
  rw [EndpointOption.Spells, name]
  unfold equalsIgnoreCase
  match arg with
  | [] => simp
  | [_] => simp
  | first :: second :: rest =>
      by_cases length : rest.length = letters.length
      · have tail := all_zip_iff length
        rw [lower] at tail
        by_cases dashes : first = '-'.toUInt8 ∧ second = '-'.toUInt8
        · obtain ⟨rfl, rfl⟩ := dashes
          simpa [length, tolower_eq_dash] using tail
        · rw [not_and_or] at dashes
          simp [length, dashes, tolower_eq_dash]
          tauto
      · have different : rest.map tolower ≠ letters := by
          rintro rfl
          exact length (List.length_map _).symm
        simp [length, different]

theorem EndpointOption.Spells.iff {arg : CString} {option other : EndpointOption}
    (spells : option.Spells arg) :
    equalsIgnoreCase arg other.name false = true ↔ option = other := by
  rw [equalsIgnoreCase_iff]
  constructor
  · intro also
    exact name_injective (spells.symm.trans also)
  · rintro rfl
    exact spells

/-! What the pieces of the parser accept. -/

theorem bind_eq_ok {ε α β : Type} {computed : Except ε α} {next : α → Except ε β} {result : β} :
    (computed >>= next) = .ok result ↔ ∃ value, computed = .ok value ∧ next value = .ok result := by
  cases computed with
  | error text => simp [bind, Except.bind]
  | ok value => simp [bind, Except.bind]

theorem startsLikeOption_iff {value : CString} :
    (1 < value.length ∧ value[0]? = some '-'.toUInt8 ∧ value[1]? = some '-'.toUInt8) ↔
      cstring "--" <+: value := by
  have dashes : cstring "--" = ['-'.toUInt8, '-'.toUInt8] := rfl
  rw [dashes]
  match value with
  | [] => simp
  | [_] => simp
  | first :: second :: rest =>
      rw [List.cons_prefix_cons, List.cons_prefix_cons]
      simp [eq_comm]

theorem nextArg_eq_ok {following : Option CString} {value : CString} :
    nextArg following = .ok value ↔ following = some value ∧ ¬cstring "--" <+: value := by
  cases following with
  | none => simp [nextArg]
  | some text =>
      simp only [nextArg, startsLikeOption_iff, Option.some.injEq]
      split
      · rename_i optionLike
        constructor
        · nofun
        · rintro ⟨rfl, plain⟩
          exact absurd optionLike plain
      · rename_i plain
        constructor
        · intro same
          cases same
          exact ⟨rfl, plain⟩
        · rintro ⟨rfl, -⟩
          rfl

theorem fromChars_numeral {width base : Nat} {text : CString} (some : text ≠ [])
    (digits : ∀ c ∈ text, (digit base c).isSome) :
    fromChars width base text =
      if valueOf (digit base) base text < 2 ^ width then
        { ptr := text.length, ec := .none, value := valueOf (digit base) base text }
      else { ptr := text.length, ec := .resultOutOfRange, value := 0 } := by
  rw [fromChars, List.takeWhile_eq_self_iff.mpr digits, if_neg some]

theorem fromChars_shortened {width base : Nat} {text : CString}
    (other : ¬∀ c ∈ text, (digit base c).isSome) :
    (fromChars width base text).ec ≠ .none ∨ (fromChars width base text).ptr ≠ text.length := by
  have front := List.takeWhile_prefix (fun c => (digit base c).isSome) (l := text)
  have shorter : (text.takeWhile fun c => (digit base c).isSome).length ≠ text.length :=
    fun same => other (List.takeWhile_eq_self_iff.mp (front.eq_of_length same))
  unfold fromChars
  dsimp only
  split
  · exact .inl nofun
  · split
    · exact .inr shorter
    · exact .inl nofun

theorem parseNumFromString_eq_ok {width base number : Nat} {text name : CString} :
    parseNumFromString width text text.length name base = .ok number ↔
      Numeral (digit base) base text number ∧ number < 2 ^ width := by
  unfold parseNumFromString
  rw [List.take_length, numeral_iff]
  by_cases empty : text = []
  · subst empty
    simp [fromChars]
  · by_cases digits : ∀ c ∈ text, (digit base c).isSome
    · rw [fromChars_numeral empty digits]
      split
      · rename_i fits
        simp only [ne_eq, not_true_eq_false, or_self, if_false, Except.ok.injEq]
        constructor
        · rintro rfl
          exact ⟨⟨empty, digits, rfl⟩, fits⟩
        · exact fun numeral => numeral.1.2.2
      · rename_i large
        constructor
        · intro same
          simp at same
        · rintro ⟨⟨-, -, rfl⟩, fits⟩
          exact absurd fits large
    · simp only [if_pos (fromChars_shortened digits)]
      constructor
      · nofun
      · exact fun numeral => absurd numeral.1.2.1 digits

/-! The state of the parser is a record with a field for each option. -/

namespace ParseState

def put (state : ParseState) : Setting → Option ParseState
  | .shm name =>
      if state.shmFlag then none
      else some { state with
        config := { state.config with shmName := name }
        shmFlag := true }
  | .slots count =>
      if state.slotsFlag then none
      else some { state with
        config := { state.config with slots := count }
        slotsFlag := true }
  | .localIp address =>
      if state.localIpFlag then none
      else some { state with
        config := { state.config with localIpv4Be := address }
        localIpFlag := true }
  | .peerIp address =>
      if state.peerIpFlag then none
      else some { state with
        config := { state.config with peerIpv4Be := address }
        peerIpFlag := true }
  | .dataPort port =>
      if state.dataPortFlag then none
      else some { state with
        config := { state.config with dataPort := port }
        dataPortFlag := true }
  | .nextHopMac octets =>
      if state.nextHopMacFlag then none
      else some { state with
        config := { state.config with nextHopMac := octets }
        nextHopMacFlag := true }
  | .batching => some { state with config := { state.config with batchingEnabled := true } }

def held (state : ParseState) : EndpointOption → Option Setting
  | .shm => if state.shmFlag then some (.shm state.config.shmName) else none
  | .slots => if state.slotsFlag then some (.slots state.config.slots) else none
  | .localIp => if state.localIpFlag then some (.localIp state.config.localIpv4Be) else none
  | .peerIp => if state.peerIpFlag then some (.peerIp state.config.peerIpv4Be) else none
  | .dataPort => if state.dataPortFlag then some (.dataPort state.config.dataPort) else none
  | .nextHopMac =>
      if state.nextHopMacFlag then some (.nextHopMac state.config.nextHopMac) else none
  | .batching => if state.config.batchingEnabled then some .batching else none

theorem fills : Fills Setting.option (fun option => option = .batching) held put where
  accepts state setting := by
    cases setting <;> simp [put, held, Setting.option]
  stores := by
    intro state setting next stored
    cases setting with
    | batching =>
        cases stored
        rfl
    | _ =>
        obtain ⟨-, rfl⟩ := by simpa [put] using stored
        rfl
  keeps := by
    intro state setting next other stored different
    cases setting with
    | batching =>
        cases stored
        cases other <;> first | rfl | exact absurd rfl different
    | _ =>
        obtain ⟨-, rfl⟩ := by simpa [put] using stored
        cases other <;> first | rfl | exact absurd rfl different

end ParseState

/-! One argument. -/

section Values

variable {inetPton : CString → Option UInt32} {state after : ParseState}
  {next : Except CString CString}

theorem parseIpArg_eq_ok {flag set : Bool} {flagName : CString} {address : UInt32} :
    parseIpArg inetPton flag flagName next = .ok (set, address) ↔
      flag = false ∧ set = true ∧ ∃ value, next = .ok value ∧ inetPton value = some address := by
  unfold parseIpArg
  cases flag with
  | true => simp
  | false =>
      rw [if_neg Bool.false_ne_true, bind_eq_ok]
      constructor
      · rintro ⟨value, given, parsed⟩
        split at parsed
        · contradiction
        · rename_i found valid
          cases parsed
          exact ⟨rfl, rfl, value, given, valid⟩
      · rintro ⟨-, rfl, value, given, valid⟩
        refine ⟨value, given, ?_⟩
        rw [valid]

theorem parsePortArg_eq_ok {flag set : Bool} {flagName : CString} {port : UInt16} :
    parsePortArg flag flagName next = .ok (set, port) ↔
      flag = false ∧ set = true ∧ ∃ value number, next = .ok value ∧
        Numeral (digit 10) 10 value number ∧ 1 ≤ number ∧ number ≤ 65535 ∧
        port = UInt16.ofNat number := by
  unfold parsePortArg
  cases flag with
  | true => simp
  | false =>
      simp only [Bool.false_eq_true, if_false, bind_eq_ok, parseNumFromString_eq_ok]
      constructor
      · rintro ⟨value, given, number, ⟨numeral, bound⟩, parsed⟩
        split at parsed
        · contradiction
        · rename_i positive
          cases parsed
          refine ⟨trivial, rfl, value, number, given, numeral, ?_, by omega, rfl⟩
          by_contra less
          have zero : number = 0 := by omega
          subst zero
          exact positive rfl
      · rintro ⟨-, rfl, value, number, given, numeral, positive, bound, rfl⟩
        refine ⟨value, given, number, ⟨numeral, by omega⟩, if_neg ?_⟩
        intro zero
        have same := congrArg UInt16.toNat zero
        rw [UInt16.toNat_ofNat_of_lt' (show number < 2 ^ 16 by omega)] at same
        exact absurd same (by simp; omega)

/-- The bit trick of the source: no zero, and one bit only. -/
theorem powerOfTwo_iff {number : Nat} (bound : number < 2 ^ 32) :
    ¬(UInt32.ofNat number = 0 ∨ (UInt32.ofNat number - 1) &&& UInt32.ofNat number ≠ 0) ↔
      ∃ exponent, number = 2 ^ exponent := by
  have value := UInt32.toNat_ofNat_of_lt' bound
  rw [← Nat.isPowerOfTwo, ← Nat.ne_zero_and_sub_one_eq_zero_iff_isPowerOfTwo, not_or, not_not]
  have zero : UInt32.ofNat number = 0 ↔ number = 0 := by
    rw [← UInt32.toNat_inj, value]
    rfl
  by_cases positive : number = 0
  · simp [positive]
  · have less : (UInt32.ofNat number - 1).toNat = number - 1 := by
      rw [UInt32.toNat_sub_of_le, value]
      · rfl
      · rw [UInt32.le_iff_toNat_le, value]
        exact Nat.one_le_iff_ne_zero.mpr positive
    rw [zero, ← UInt32.toNat_inj, UInt32.toNat_and, less, value, Nat.and_comm]
    rfl

theorem parseShmArg_eq_ok :
    state.parseShmArg next = .ok after ↔ ∃ value, next = .ok value ∧
      state.put (.shm value) = some after := by
  unfold ParseState.parseShmArg
  cases set : state.shmFlag with
  | true => simp [ParseState.put, set]
  | false => simp [ParseState.put, set, bind_eq_ok]

theorem parseSlotsArg_eq_ok :
    state.parseSlotsArg next = .ok after ↔ ∃ value number, next = .ok value ∧
      Numeral (digit 10) 10 value number ∧ (∃ exponent, number = 2 ^ exponent) ∧
      number < 2 ^ 32 ∧ state.put (.slots (UInt32.ofNat number)) = some after := by
  unfold ParseState.parseSlotsArg
  cases set : state.slotsFlag with
  | true => simp [ParseState.put, set]
  | false =>
      simp only [Bool.false_eq_true, if_false, bind_eq_ok, parseNumFromString_eq_ok]
      constructor
      · rintro ⟨value, given, number, ⟨numeral, bound⟩, parsed⟩
        split at parsed
        · contradiction
        · rename_i power
          refine ⟨value, number, given, numeral, (powerOfTwo_iff bound).mp power, bound, ?_⟩
          simpa [ParseState.put, set] using parsed
      · rintro ⟨value, number, given, numeral, power, bound, stored⟩
        refine ⟨value, given, number, ⟨numeral, bound⟩, ?_⟩
        rw [if_neg ((powerOfTwo_iff bound).mpr power)]
        simpa [ParseState.put, set] using stored

end Values

/-! The octets of the next-hop MAC. -/

/-- What one turn of the loop wants of the text. -/
structure Octet (text : CString) (octetIdx : Nat) (octet : UInt8) : Prop where
  separated : octetIdx < 5 → text[octetIdx * 3 + 2]? = some ':'.toUInt8
  numeral : Numeral (digit 16) 16 (slice text (octetIdx * 3) 2) octet.toNat

section Octets

variable {text : CString} {mac octets : EtherAddr} {count zeroOctetsCount : Nat}

theorem parseOctet_eq_ok {seen : EtherAddr × Nat} (length : text.length = 17) (inside : count < 6) :
    ParseState.parseOctet text seen count = .ok (octets, zeroOctetsCount) ↔
      ∃ octet, Octet text count octet ∧ octets = seen.1.setIfInBounds count octet ∧
        zeroOctetsCount = if octet = 0 then seen.2 + 1 else seen.2 := by
  have size : (slice text (count * 3) 2).length = 2 := length_slice_of_le (by omega)
  have parsed (number : Nat) := @parseNumFromString_eq_ok 8 16 number
    (slice text (count * 3) 2) (cstring "next-hop-mac")
  rw [size] at parsed
  unfold ParseState.parseOctet
  split
  · rename_i unseparated
    constructor
    · nofun
    · rintro ⟨octet, wanted, -⟩
      exact absurd (wanted.separated unseparated.1) unseparated.2
  · rename_i separated
    rw [not_and, not_not] at separated
    simp only [bind_eq_ok, parsed, Except.ok.injEq, Prod.mk.injEq]
    constructor
    · rintro ⟨number, ⟨numeral, bound⟩, rfl, rfl⟩
      refine ⟨UInt8.ofNat number, ⟨separated, ?_⟩, rfl, rfl⟩
      rwa [UInt8.toNat_ofNat_of_lt' bound]
    · rintro ⟨octet, wanted, rfl, rfl⟩
      refine ⟨octet.toNat, ⟨wanted.numeral, octet.toNat_lt⟩, ?_⟩
      rw [UInt8.ofNat_toNat]
      exact ⟨rfl, rfl⟩

theorem set_front {area front : List UInt8} {cell : UInt8} (room : front.length < area.length) :
    (front ++ area.drop front.length).set front.length cell =
      front ++ [cell] ++ area.drop (front.length + 1) := by
  rw [List.set_append_right _ _ (Nat.le_refl _), Nat.sub_self, List.drop_eq_getElem_cons room,
    List.set_cons_zero, List.append_assoc, List.singleton_append]

theorem count_append_singleton (front : List UInt8) (octet : UInt8) :
    (front ++ [octet]).count 0 = if octet = 0 then front.count 0 + 1 else front.count 0 := by
  rw [List.count_append, List.count_singleton]
  by_cases zero : octet = 0
  · simp [zero]
  · simp [zero]

/-- The octets read so far lie in front of what was there before. -/
theorem parseOctets_eq_ok (length : text.length = 17) (inside : count ≤ 6) :
    (List.range count).foldlM (ParseState.parseOctet text) (mac, 0) =
        .ok (octets, zeroOctetsCount) ↔
      ∃ read : List UInt8, read.length = count ∧
        (∀ octetIdx octet, read[octetIdx]? = some octet → Octet text octetIdx octet) ∧
        octets.toList = read ++ mac.toList.drop count ∧ zeroOctetsCount = read.count 0 := by
  induction count generalizing octets zeroOctetsCount with
  | zero =>
      simp only [List.range_zero, List.foldlM_nil, pure, Except.pure, Except.ok.injEq,
        Prod.mk.injEq, List.length_eq_zero_iff]
      constructor
      · rintro ⟨rfl, rfl⟩
        exact ⟨[], rfl, nofun, rfl, rfl⟩
      · rintro ⟨read, rfl, -, same, rfl⟩
        exact ⟨Vector.toList_inj.mp same.symm, rfl⟩
  | succ count ih =>
      have last (seen : EtherAddr × Nat) : [count].foldlM (ParseState.parseOctet text) seen =
          ParseState.parseOctet text seen count := by simp
      have size : mac.toList.length = 6 := mac.length_toList
      rw [List.range_succ, List.foldlM_append, bind_eq_ok]
      simp only [last, parseOctet_eq_ok length inside]
      constructor
      · rintro ⟨⟨earlier, zeros⟩, before, octet, wanted, rfl, rfl⟩
        obtain ⟨read, rfl, each, laid, rfl⟩ := (ih (by omega)).mp before
        refine ⟨read ++ [octet], by simp, ?_, ?_, (count_append_singleton read octet).symm⟩
        · intro octetIdx other found
          rcases getElem?_append_singleton_cases found with earlier | ⟨rfl, rfl⟩
          · exact each octetIdx other earlier
          · exact wanted
        · rw [Vector.toList_setIfInBounds, laid, set_front (by omega)]
      · rintro ⟨read, counted, each, laid, rfl⟩
        rcases List.eq_nil_or_concat' read with rfl | ⟨front, octet, rfl⟩
        · contradiction
        · rw [List.length_append, List.length_singleton, Nat.add_right_cancel_iff] at counted
          subst counted
          let earlier : EtherAddr := ⟨(front ++ mac.toList.drop front.length).toArray, by
            rw [List.size_toArray, List.length_append, List.length_drop]
            omega⟩
          have before := (@ih earlier (front.count 0) (by omega)).mpr
            ⟨front, rfl, fun octetIdx other found => each octetIdx other <|
              getElem?_of_prefix (List.prefix_append _ _) found, rfl, rfl⟩
          refine ⟨(earlier, front.count 0), before, octet, each _ octet (by simp), ?_,
            count_append_singleton front octet⟩
          rw [← Vector.toList_inj, Vector.toList_setIfInBounds, laid]
          exact (set_front (by omega)).symm

/-- The octets and the colons between them are the whole text. -/
theorem octets_iff_written :
    (text.length = 17 ∧
        ∀ octetIdx octet, octets.toList[octetIdx]? = some octet → Octet text octetIdx octet) ↔
      ∃ parts : List CString, text = [':'.toUInt8].intercalate parts ∧
        List.Forall₂ (fun part octet =>
          part.length = 2 ∧ Numeral (digit 16) 16 part octet.toNat) parts octets.toList := by
  have size : octets.toList.length = 6 := octets.length_toList
  generalize octets.toList = list at size ⊢
  match list, size with
  | [o0, o1, o2, o3, o4, o5], _ =>
      constructor
      · rintro ⟨length, each⟩
        have w0 := each 0 o0 rfl
        have w1 := each 1 o1 rfl
        have w2 := each 2 o2 rfl
        have w3 := each 3 o3 rfl
        have w4 := each 4 o4 rfl
        have w5 := each 5 o5 rfl
        match text, length with
        | [a0, b0, c0, a1, b1, c1, a2, b2, c2, a3, b3, c3, a4, b4, c4, a5, b5], _ =>
            obtain rfl : c0 = _ := Option.some.inj (w0.separated (by omega))
            obtain rfl : c1 = _ := Option.some.inj (w1.separated (by omega))
            obtain rfl : c2 = _ := Option.some.inj (w2.separated (by omega))
            obtain rfl : c3 = _ := Option.some.inj (w3.separated (by omega))
            obtain rfl : c4 = _ := Option.some.inj (w4.separated (by omega))
            exact ⟨[[a0, b0], [a1, b1], [a2, b2], [a3, b3], [a4, b4], [a5, b5]], rfl,
              .cons ⟨rfl, w0.numeral⟩ <| .cons ⟨rfl, w1.numeral⟩ <| .cons ⟨rfl, w2.numeral⟩ <|
              .cons ⟨rfl, w3.numeral⟩ <| .cons ⟨rfl, w4.numeral⟩ <| .cons ⟨rfl, w5.numeral⟩ .nil⟩
      · rintro ⟨parts, rfl, e⟩
        obtain ⟨p0, _, ⟨l0, n0⟩, e0, rfl⟩ := List.forall₂_cons_right_iff.mp e
        obtain ⟨p1, _, ⟨l1, n1⟩, e1, rfl⟩ := List.forall₂_cons_right_iff.mp e0
        obtain ⟨p2, _, ⟨l2, n2⟩, e2, rfl⟩ := List.forall₂_cons_right_iff.mp e1
        obtain ⟨p3, _, ⟨l3, n3⟩, e3, rfl⟩ := List.forall₂_cons_right_iff.mp e2
        obtain ⟨p4, _, ⟨l4, n4⟩, e4, rfl⟩ := List.forall₂_cons_right_iff.mp e3
        obtain ⟨p5, _, ⟨l5, n5⟩, e5, rfl⟩ := List.forall₂_cons_right_iff.mp e4
        cases List.forall₂_nil_right_iff.mp e5
        match p0, p1, p2, p3, p4, p5, l0, l1, l2, l3, l4, l5 with
        | [a0, b0], [a1, b1], [a2, b2], [a3, b3], [a4, b4], [a5, b5], _, _, _, _, _, _ =>
            refine ⟨rfl, ?_⟩
            intro octetIdx octet found
            match octetIdx with
            | 0 => exact Option.some.inj found ▸ ⟨fun _ => rfl, n0⟩
            | 1 => exact Option.some.inj found ▸ ⟨fun _ => rfl, n1⟩
            | 2 => exact Option.some.inj found ▸ ⟨fun _ => rfl, n2⟩
            | 3 => exact Option.some.inj found ▸ ⟨fun _ => rfl, n3⟩
            | 4 => exact Option.some.inj found ▸ ⟨fun _ => rfl, n4⟩
            | 5 => exact Option.some.inj found ▸ ⟨fun within => absurd within (by omega), n5⟩
            | _ + 6 => contradiction

theorem parseAllOctets_eq_ok (length : text.length = 17) :
    (List.range 6).foldlM (ParseState.parseOctet text) (mac, 0) =
        .ok (octets, zeroOctetsCount) ↔
      (∀ octetIdx octet, octets.toList[octetIdx]? = some octet → Octet text octetIdx octet) ∧
        zeroOctetsCount = octets.toList.count 0 := by
  have none : mac.toList.drop 6 = [] := by
    rw [List.drop_eq_nil_iff, Vector.length_toList]
  rw [parseOctets_eq_ok length (Nat.le_refl 6), none]
  simp only [List.append_nil]
  constructor
  · rintro ⟨read, -, each, rfl, counted⟩
    exact ⟨each, counted⟩
  · rintro ⟨each, counted⟩
    exact ⟨_, octets.length_toList, each, rfl, counted⟩

theorem count_zero_iff : octets.toList.count 0 = 6 ↔ octets = .replicate 6 0 := by
  have size : octets.toList.length = 6 := octets.length_toList
  have all := @List.count_eq_length _ _ _ 0 octets.toList
  rw [size] at all
  rw [all, ← Vector.toList_inj, Vector.toList_replicate, List.eq_replicate_iff]
  simp [size, eq_comm]

theorem parseNextHopMacArg_eq_ok {state after : ParseState} {next : Except CString CString} :
    state.parseNextHopMacArg next = .ok after ↔ ∃ value octets, next = .ok value ∧
      MacAddress value octets ∧ state.put (.nextHopMac octets) = some after := by
  unfold ParseState.parseNextHopMacArg
  cases set : state.nextHopMacFlag with
  | true => simp [ParseState.put, set]
  | false =>
      simp only [Bool.false_eq_true, if_false, bind_eq_ok]
      constructor
      · rintro ⟨value, given, parsed⟩
        split at parsed
        · contradiction
        · rename_i length
          rw [not_not] at length
          obtain ⟨⟨octets, zeroOctetsCount⟩, looped, parsed⟩ := bind_eq_ok.mp parsed
          obtain ⟨each, rfl⟩ := (parseAllOctets_eq_ok length).mp looped
          dsimp only at parsed
          split at parsed
          · contradiction
          · rename_i nonzero
            split at parsed
            · contradiction
            · rename_i unicast
              rw [not_not] at unicast
              refine ⟨value, octets, given, ⟨octets_iff_written.mp ⟨length, each⟩,
                mt count_zero_iff.mpr nonzero, unicast⟩, ?_⟩
              simpa [ParseState.put, set] using parsed
      · rintro ⟨value, octets, given, ⟨written, nonzero, unicast⟩, stored⟩
        obtain ⟨length, each⟩ := octets_iff_written.mpr written
        refine ⟨value, given, ?_⟩
        rw [if_neg (not_not.mpr length), bind_eq_ok]
        refine ⟨(octets, octets.toList.count 0), (parseAllOctets_eq_ok length).mpr ⟨each, rfl⟩, ?_⟩
        dsimp only
        have clear : ¬octets[0] &&& 1 ≠ 0 := not_not.mpr unicast
        rw [if_neg (mt count_zero_iff.mp nonzero), if_neg clear]
        simpa [ParseState.put, set] using stored

end Octets

end Lldt.Transport
