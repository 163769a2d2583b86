import Lldt.Endpoint.Grammar

namespace Lldt.Transport

open Lldt.Data.Digits
open Lldt.Data.Filling

/-! The parser accepts a command line exactly when it is made of option groups. -/

section Acceptance

variable {inetPton : CString → Option UInt32} {state after : ParseState}
  {option : EndpointOption} {arg : CString} {following : Option CString} {advanced : Bool}

/-- The option takes a value that denotes a setting for it, and the setting is put. -/
def Takes (inetPton : CString → Option UInt32) (state : ParseState) (option : EndpointOption)
    (next : Except CString CString) (after : ParseState) : Prop :=
  ∃ value setting, next = .ok value ∧ setting.option = option ∧
    Denotes inetPton value setting ∧ state.put setting = some after

theorem Denotes.valued {value : CString} {setting : Setting}
    (denotes : Denotes inetPton value setting) : setting.option ≠ .batching := by
  cases denotes <;> nofun

/-- The names as the parser has them, one after the other. -/
theorem spelled {Meant : EndpointOption → Prop}
    (names : ∀ other, (equalsIgnoreCase arg other.name false = true) = Meant other) :
    (equalsIgnoreCase arg (cstring "--shm") false = true) = Meant .shm ∧
    (equalsIgnoreCase arg (cstring "--slots") false = true) = Meant .slots ∧
    (equalsIgnoreCase arg (cstring "--local-ip") false = true) = Meant .localIp ∧
    (equalsIgnoreCase arg (cstring "--peer-ip") false = true) = Meant .peerIp ∧
    (equalsIgnoreCase arg (cstring "--data-port") false = true) = Meant .dataPort ∧
    (equalsIgnoreCase arg (cstring "--next-hop-mac") false = true) = Meant .nextHopMac ∧
    (equalsIgnoreCase arg (cstring "--batching") false = true) = Meant .batching :=
  ⟨names .shm, names .slots, names .localIp, names .peerIp, names .dataPort, names .nextHopMac,
    names .batching⟩

theorem parseArg_of_spells (spells : option.Spells arg) (valued : option ≠ .batching) :
    state.parseArg inetPton arg following = .ok (after, advanced) ↔
      advanced = true ∧ Takes inetPton state option (nextArg following) after := by
  obtain ⟨shm, slots, localIp, peerIp, dataPort, nextHopMac, -⟩ :=
    spelled fun _ => propext spells.iff
  unfold ParseState.parseArg
  simp only [shm, slots, localIp, peerIp, dataPort, nextHopMac]
  cases option with
  | shm =>
      simp only [if_true, bind_eq_ok, parseShmArg_eq_ok, Except.ok.injEq, Prod.mk.injEq]
      constructor
      · rintro ⟨_, ⟨value, given, stored⟩, rfl, rfl⟩
        exact ⟨rfl, value, _, given, rfl, .shm value, stored⟩
      · rintro ⟨rfl, value, setting, given, same, denotes, stored⟩
        cases denotes <;> try contradiction
        exact ⟨_, ⟨value, given, stored⟩, rfl, rfl⟩
  | slots =>
      simp only [reduceCtorEq, if_false, if_true, bind_eq_ok, parseSlotsArg_eq_ok,
        Except.ok.injEq, Prod.mk.injEq]
      constructor
      · rintro ⟨_, ⟨value, number, given, numeral, power, bound, stored⟩, rfl, rfl⟩
        exact ⟨rfl, value, _, given, rfl, .slots numeral power bound, stored⟩
      · rintro ⟨rfl, value, setting, given, same, denotes, stored⟩
        cases denotes <;> try contradiction
        rename_i number numeral power bound
        exact ⟨_, ⟨value, number, given, numeral, power, bound, stored⟩, rfl, rfl⟩
  | localIp =>
      simp only [reduceCtorEq, if_false, if_true, bind_eq_ok, Except.ok.injEq, Prod.mk.injEq]
      constructor
      · rintro ⟨⟨set, address⟩, parsed, rfl, rfl⟩
        obtain ⟨free, rfl, value, given, valid⟩ := parseIpArg_eq_ok.mp parsed
        exact ⟨rfl, value, _, given, rfl, .localIp valid, by simp [ParseState.put, free]⟩
      · rintro ⟨rfl, value, setting, given, same, denotes, stored⟩
        cases denotes <;> try contradiction
        rename_i address valid
        obtain ⟨free, rfl⟩ := by simpa [ParseState.put] using stored
        exact ⟨(true, address), parseIpArg_eq_ok.mpr ⟨free, rfl, value, given, valid⟩, rfl, rfl⟩
  | peerIp =>
      simp only [reduceCtorEq, if_false, if_true, bind_eq_ok, Except.ok.injEq, Prod.mk.injEq]
      constructor
      · rintro ⟨⟨set, address⟩, parsed, rfl, rfl⟩
        obtain ⟨free, rfl, value, given, valid⟩ := parseIpArg_eq_ok.mp parsed
        exact ⟨rfl, value, _, given, rfl, .peerIp valid, by simp [ParseState.put, free]⟩
      · rintro ⟨rfl, value, setting, given, same, denotes, stored⟩
        cases denotes <;> try contradiction
        rename_i address valid
        obtain ⟨free, rfl⟩ := by simpa [ParseState.put] using stored
        exact ⟨(true, address), parseIpArg_eq_ok.mpr ⟨free, rfl, value, given, valid⟩, rfl, rfl⟩
  | dataPort =>
      simp only [reduceCtorEq, if_false, if_true, bind_eq_ok, Except.ok.injEq, Prod.mk.injEq]
      constructor
      · rintro ⟨⟨set, port⟩, parsed, rfl, rfl⟩
        obtain ⟨free, rfl, value, number, given, numeral, positive, bound, rfl⟩ :=
          parsePortArg_eq_ok.mp parsed
        exact ⟨rfl, value, _, given, rfl, .dataPort numeral positive bound,
          by simp [ParseState.put, free]⟩
      · rintro ⟨rfl, value, setting, given, same, denotes, stored⟩
        cases denotes <;> try contradiction
        rename_i number numeral positive bound
        obtain ⟨free, rfl⟩ := by simpa [ParseState.put] using stored
        exact ⟨(true, UInt16.ofNat number), parsePortArg_eq_ok.mpr
          ⟨free, rfl, value, number, given, numeral, positive, bound, rfl⟩, rfl, rfl⟩
  | nextHopMac =>
      simp only [reduceCtorEq, if_false, if_true, bind_eq_ok, parseNextHopMacArg_eq_ok,
        Except.ok.injEq, Prod.mk.injEq]
      constructor
      · rintro ⟨_, ⟨value, octets, given, mac, stored⟩, rfl, rfl⟩
        exact ⟨rfl, value, _, given, rfl, .nextHopMac mac, stored⟩
      · rintro ⟨rfl, value, setting, given, same, denotes, stored⟩
        cases denotes <;> try contradiction
        rename_i octets mac
        exact ⟨_, ⟨value, octets, given, mac, stored⟩, rfl, rfl⟩
  | batching => contradiction

theorem parseArg_batching (spells : EndpointOption.batching.Spells arg) :
    state.parseArg inetPton arg following = .ok (after, advanced) ↔
      advanced = false ∧ state.put .batching = some after := by
  obtain ⟨shm, slots, localIp, peerIp, dataPort, nextHopMac, batching⟩ :=
    spelled fun _ => propext spells.iff
  unfold ParseState.parseArg
  simp only [shm, slots, localIp, peerIp, dataPort, nextHopMac, batching, reduceCtorEq, if_false,
    if_true, ParseState.put, Except.ok.injEq, Prod.mk.injEq, Option.some.injEq]
  exact ⟨fun both => ⟨both.2.symm, both.1⟩, fun both => ⟨both.2, both.1.symm⟩⟩

theorem parseArg_unknown (unknown : ∀ option : EndpointOption, ¬option.Spells arg) :
    state.parseArg inetPton arg following ≠ .ok (after, advanced) := by
  have names (other : EndpointOption) : (equalsIgnoreCase arg other.name false = true) = False := by
    rw [equalsIgnoreCase_iff]
    exact eq_false (unknown other)
  obtain ⟨shm, slots, localIp, peerIp, dataPort, nextHopMac, batching⟩ := spelled names
  unfold ParseState.parseArg
  simp [shm, slots, localIp, peerIp, dataPort, nextHopMac, batching]

/-- An accepted argument begins a group. -/
theorem parseArg_eq_ok :
    state.parseArg inetPton arg following = .ok (after, advanced) ↔
      (advanced = true ∧ ∃ value setting, following = some value ∧
        Group inetPton [arg, value] setting ∧ state.put setting = some after) ∨
      (advanced = false ∧ Group inetPton [arg] .batching ∧
        state.put .batching = some after) := by
  by_cases known : ∃ option : EndpointOption, option.Spells arg
  · obtain ⟨option, spells⟩ := known
    have only {other : EndpointOption} (also : other.Spells arg) : other = option :=
      EndpointOption.name_injective (also.symm.trans spells)
    by_cases batching : option = .batching
    · subst batching
      rw [parseArg_batching spells]
      constructor
      · rintro ⟨rfl, stored⟩
        exact .inr ⟨rfl, .batching spells, stored⟩
      · rintro (⟨-, value, setting, -, group, -⟩ | ⟨rfl, -, stored⟩)
        · cases group with
          | valued also _ denotes => exact absurd (only also) denotes.valued
        · exact ⟨rfl, stored⟩
    · rw [parseArg_of_spells spells batching]
      constructor
      · rintro ⟨rfl, value, setting, given, rfl, denotes, stored⟩
        obtain ⟨present, plain⟩ := nextArg_eq_ok.mp given
        exact .inl ⟨rfl, value, setting, present, .valued spells plain denotes, stored⟩
      · rintro (⟨rfl, value, setting, present, group, stored⟩ | ⟨-, group, -⟩)
        · cases group with
          | valued also plain denotes =>
              exact ⟨rfl, value, setting, nextArg_eq_ok.mpr ⟨present, plain⟩, only also, denotes,
                stored⟩
        · cases group with
          | batching also => exact absurd (only also).symm batching
  · constructor
    · intro accepted
      exact absurd accepted (parseArg_unknown fun option spells => known ⟨option, spells⟩)
    · rintro (⟨-, value, setting, -, group, -⟩ | ⟨-, group, -⟩)
      · cases group with
        | valued spells _ _ => exact absurd ⟨_, spells⟩ known
      · cases group with
        | batching spells => exact absurd ⟨_, spells⟩ known

/-! The loop over the arguments. -/

theorem parseArgs_cons (rest : List CString) :
    state.parseArgs inetPton (arg :: rest) =
      (state.parseArg inetPton arg rest.head? >>= fun parsed =>
        if parsed.2 then parsed.1.parseArgs inetPton rest.tail
        else parsed.1.parseArgs inetPton rest) := by
  cases rest with
  | nil =>
      simp only [ParseState.parseArgs, List.head?_nil, List.tail_nil]
      congr 1
      funext parsed
      split <;> rfl
  | cons following rest => rfl

theorem groups_of_parseArgs {args : List CString}
    (accepted : state.parseArgs inetPton args = .ok after) :
    ∃ groups : List (OptionGroup inetPton), args = groups.flatMap OptionGroup.args ∧
      (groups.map OptionGroup.setting).foldlM ParseState.put state = some after := by
  induction size : args.length using Nat.strong_induction_on generalizing state args with
  | _ size ih =>
      subst size
      cases args with
      | nil =>
          cases accepted
          exact ⟨[], rfl, rfl⟩
      | cons arg rest =>
          rw [parseArgs_cons, bind_eq_ok] at accepted
          obtain ⟨⟨next, advanced⟩, parsed, accepted⟩ := accepted
          rcases parseArg_eq_ok.mp parsed with
            ⟨rfl, value, setting, present, group, stored⟩ | ⟨rfl, group, stored⟩
          · obtain ⟨rest, rfl⟩ := List.head?_eq_some_iff.mp present
            obtain ⟨groups, rfl, filled⟩ :=
              ih rest.length (by simp only [List.length_cons]; omega) accepted rfl
            refine ⟨⟨_, setting, group⟩ :: groups, rfl, ?_⟩
            rw [List.map_cons, List.foldlM_cons, stored]
            exact filled
          · obtain ⟨groups, rfl, filled⟩ :=
              ih rest.length (by simp only [List.length_cons]; omega) accepted rfl
            refine ⟨⟨_, .batching, group⟩ :: groups, rfl, ?_⟩
            rw [List.map_cons, List.foldlM_cons, stored]
            exact filled

theorem parseArg_valued {value : CString} {setting : Setting}
    (spells : setting.option.Spells arg) (plain : ¬cstring "--" <+: value)
    (denotes : Denotes inetPton value setting) :
    state.parseArg inetPton arg (some value) = .ok (after, advanced) ↔
      advanced = true ∧ state.put setting = some after := by
  have taken {next : ParseState} (stored : state.put setting = some next) :
      state.parseArg inetPton arg (some value) = .ok (next, true) :=
    (parseArg_of_spells spells denotes.valued).mpr
      ⟨rfl, value, setting, nextArg_eq_ok.mpr ⟨rfl, plain⟩, rfl, denotes, stored⟩
  constructor
  · intro accepted
    obtain ⟨-, _, other, -, same, -, stored⟩ :=
      (parseArg_of_spells spells denotes.valued).mp accepted
    -- Whether a setting can be put depends on its option only.
    have free : ∃ next, state.put setting = some next := by
      rw [ParseState.fills.accepts, ← same, ← ParseState.fills.accepts]
      exact ⟨after, stored⟩
    obtain ⟨next, stored⟩ := free
    rw [taken stored] at accepted
    cases accepted
    exact ⟨rfl, stored⟩
  · rintro ⟨rfl, stored⟩
    exact taken stored

theorem parseArgs_groups {groups : List (OptionGroup inetPton)} :
    state.parseArgs inetPton (groups.flatMap OptionGroup.args) = .ok after ↔
      (groups.map OptionGroup.setting).foldlM ParseState.put state = some after := by
  induction groups generalizing state with
  | nil => simp [ParseState.parseArgs]
  | cons first groups ih =>
      obtain ⟨args, setting, group⟩ := first
      rw [List.flatMap_cons, List.map_cons, List.foldlM_cons, Option.bind_eq_bind,
        Option.bind_eq_some_iff]
      cases group with
      | valued spells plain denotes =>
          rename_i arg value
          rw [List.cons_append, parseArgs_cons, bind_eq_ok]
          constructor
          · rintro ⟨⟨next, advanced⟩, parsed, rest⟩
            obtain ⟨rfl, stored⟩ := (parseArg_valued spells plain denotes).mp parsed
            exact ⟨next, stored, ih.mp rest⟩
          · rintro ⟨next, stored, rest⟩
            exact ⟨(next, true), (parseArg_valued spells plain denotes).mpr ⟨rfl, stored⟩,
              ih.mpr rest⟩
      | batching spells =>
          rw [List.cons_append, parseArgs_cons, bind_eq_ok]
          constructor
          · rintro ⟨⟨next, advanced⟩, parsed, rest⟩
            obtain ⟨rfl, stored⟩ := (parseArg_batching spells).mp parsed
            exact ⟨next, stored, ih.mp rest⟩
          · rintro ⟨next, stored, rest⟩
            exact ⟨(next, false), (parseArg_batching spells).mpr ⟨rfl, stored⟩, ih.mpr rest⟩

/-! The settings determine the configuration. -/

theorem held_start (option : EndpointOption) : ({} : ParseState).held option = none := by
  cases option <;> rfl

def ParseState.complete (state : ParseState) : Prop :=
  state.shmFlag = true ∧ state.slotsFlag = true ∧ state.localIpFlag = true ∧
    state.peerIpFlag = true ∧ state.dataPortFlag = true ∧ state.nextHopMacFlag = true

theorem tryParse_eq_ok {argv : List CString} {config : EndpointConfig} :
    tryParseEndpointConfig inetPton argv = .ok config ↔
      ∃ final : ParseState, ParseState.parseArgs inetPton {} (argv.drop 1) = .ok final ∧
        final.complete ∧ final.config = config := by
  unfold tryParseEndpointConfig ParseState.complete
  rw [bind_eq_ok]
  apply exists_congr
  intro final
  cases final.shmFlag <;> cases final.slotsFlag <;> cases final.localIpFlag <;>
    cases final.peerIpFlag <;> cases final.dataPortFlag <;> cases final.nextHopMacFlag <;> simp

theorem entriesFor_eq_singleton {settings : List Setting} {option : EndpointOption}
    {setting : Setting} (length : (entriesFor Setting.option option settings).length ≤ 1)
    (last : (entriesFor Setting.option option settings).getLast? = some setting) :
    entriesFor Setting.option option settings = [setting] := by
  generalize entriesFor Setting.option option settings = entries at length last
  match entries, length with
  | [], _ => contradiction
  | [only], _ =>
      cases last
      rfl

theorem Setting.option_eq_batching {setting : Setting} :
    setting.option = .batching ↔ setting = .batching := by
  cases setting <;> simp [Setting.option]

theorem batching_iff {settings : List Setting} :
    (entriesFor Setting.option .batching settings).getLast? = some .batching ↔
      Setting.batching ∈ settings := by
  constructor
  · intro last
    exact (List.mem_filter.mp (List.mem_of_getLast? last)).1
  · intro occurs
    have nonempty : entriesFor Setting.option .batching settings ≠ [] :=
      List.ne_nil_of_mem (List.mem_filter.mpr ⟨occurs, rfl⟩)
    obtain ⟨-, option⟩ := List.mem_filter.mp (List.getLast_mem nonempty)
    rw [List.getLast?_eq_some_getLast nonempty,
      Setting.option_eq_batching.mp (of_decide_eq_true option)]

namespace ParseState

/-- The fields that are set, from what they hold. -/
theorem complete_of_held {final : ParseState} {config : EndpointConfig}
    (shm : final.held .shm = some (.shm config.shmName))
    (slots : final.held .slots = some (.slots config.slots))
    (localIp : final.held .localIp = some (.localIp config.localIpv4Be))
    (peerIp : final.held .peerIp = some (.peerIp config.peerIpv4Be))
    (dataPort : final.held .dataPort = some (.dataPort config.dataPort))
    (nextHopMac : final.held .nextHopMac = some (.nextHopMac config.nextHopMac))
    (batching : config.batchingEnabled = true ↔ final.held .batching = some .batching) :
    final.complete ∧ final.config = config := by
  obtain ⟨shmName, slotCount, localIpv4Be, peerIpv4Be, port, batchingEnabled, octets⟩ := config
  simp only [held, Option.ite_none_right_eq_some, Option.some.injEq, Setting.shm.injEq,
    Setting.slots.injEq, Setting.localIp.injEq, Setting.peerIp.injEq, Setting.dataPort.injEq,
    Setting.nextHopMac.injEq, and_true] at shm slots localIp peerIp dataPort nextHopMac batching
  refine ⟨⟨shm.1, slots.1, localIp.1, peerIp.1, dataPort.1, nextHopMac.1⟩, ?_⟩
  rw [← shm.2, ← slots.2, ← localIp.2, ← peerIp.2, ← dataPort.2, ← nextHopMac.2,
    Bool.eq_iff_iff.mpr batching]

theorem held_of_complete {final : ParseState} (complete : final.complete) :
    final.held .shm = some (.shm final.config.shmName) ∧
    final.held .slots = some (.slots final.config.slots) ∧
    final.held .localIp = some (.localIp final.config.localIpv4Be) ∧
    final.held .peerIp = some (.peerIp final.config.peerIpv4Be) ∧
    final.held .dataPort = some (.dataPort final.config.dataPort) ∧
    final.held .nextHopMac = some (.nextHopMac final.config.nextHopMac) := by
  obtain ⟨shm, slots, localIp, peerIp, dataPort, nextHopMac⟩ := complete
  exact ⟨if_pos shm, if_pos slots, if_pos localIp, if_pos peerIp, if_pos dataPort,
    if_pos nextHopMac⟩

theorem held_batching {final : ParseState} :
    final.held .batching = some .batching ↔ final.config.batchingEnabled = true := by
  simp [held]

end ParseState

theorem determines_iff {settings : List Setting} {config : EndpointConfig} :
    Determines settings config ↔
      ∃ final : ParseState, settings.foldlM ParseState.put {} = some final ∧
        final.complete ∧ final.config = config := by
  have fills := ParseState.fills
  constructor
  · intro determines
    have once : ∀ option : EndpointOption, ¬option = .batching →
        (entriesFor Setting.option option settings).length ≤ 1 := by
      intro option single
      cases option with
      | shm => rw [determines.shm]; exact Nat.le_refl 1
      | slots => rw [determines.slots]; exact Nat.le_refl 1
      | localIp => rw [determines.localIp]; exact Nat.le_refl 1
      | peerIp => rw [determines.peerIp]; exact Nat.le_refl 1
      | dataPort => rw [determines.dataPort]; exact Nat.le_refl 1
      | nextHopMac => rw [determines.nextHopMac]; exact Nat.le_refl 1
      | batching => contradiction
    obtain ⟨final, filled⟩ := fills.exists_final held_start once
    have held := fills.held_eq held_start filled
    refine ⟨final, filled, ParseState.complete_of_held ?_ ?_ ?_ ?_ ?_ ?_ ?_⟩
    · rw [held, determines.shm, List.getLast?_singleton]
    · rw [held, determines.slots, List.getLast?_singleton]
    · rw [held, determines.localIp, List.getLast?_singleton]
    · rw [held, determines.peerIp, List.getLast?_singleton]
    · rw [held, determines.dataPort, List.getLast?_singleton]
    · rw [held, determines.nextHopMac, List.getLast?_singleton]
    · rw [held, batching_iff, determines.batching]
  · rintro ⟨final, filled, complete, rfl⟩
    have held := fills.held_eq held_start filled
    have single {option : EndpointOption} {setting : Setting} (given : option ≠ .batching)
        (last : final.held option = some setting) :
        entriesFor Setting.option option settings = [setting] :=
      entriesFor_eq_singleton (fills.length_le_one held_start filled given)
        ((held option).symm.trans last)
    obtain ⟨shm, slots, localIp, peerIp, dataPort, nextHopMac⟩ :=
      ParseState.held_of_complete complete
    exact {
      shm := single nofun shm
      slots := single nofun slots
      localIp := single nofun localIp
      peerIp := single nofun peerIp
      dataPort := single nofun dataPort
      nextHopMac := single nofun nextHopMac
      batching := by rw [← ParseState.held_batching, held, batching_iff] }

/-! The order of the groups does not matter. -/

theorem Determines.of_perm {settings others : List Setting} {config : EndpointConfig}
    (determines : Determines settings config) (perm : others.Perm settings) :
    Determines others config := by
  have entries (option : EndpointOption) :
      (entriesFor Setting.option option others).Perm
        (entriesFor Setting.option option settings) := perm.filter _
  exact {
    shm := List.perm_singleton.mp (determines.shm ▸ entries .shm)
    slots := List.perm_singleton.mp (determines.slots ▸ entries .slots)
    localIp := List.perm_singleton.mp (determines.localIp ▸ entries .localIp)
    peerIp := List.perm_singleton.mp (determines.peerIp ▸ entries .peerIp)
    dataPort := List.perm_singleton.mp (determines.dataPort ▸ entries .dataPort)
    nextHopMac := List.perm_singleton.mp (determines.nextHopMac ▸ entries .nextHopMac)
    batching := by rw [determines.batching, perm.mem_iff] }

theorem tryParse_groups {executable : CString} {groups : List (OptionGroup inetPton)}
    {config : EndpointConfig} :
    tryParseEndpointConfig inetPton (executable :: groups.flatMap OptionGroup.args) = .ok config ↔
      Determines (groups.map OptionGroup.setting) config := by
  rw [tryParse_eq_ok, determines_iff, List.drop_succ_cons, List.drop_zero]
  simp only [parseArgs_groups]

end Acceptance

/-- The command line is accepted exactly on its grammar, and the groups may stand in
any order. -/
theorem tryParse_iff_grammar (inetPton : CString → Option UInt32) :
    (∀ (argv : List CString) (config : EndpointConfig),
      tryParseEndpointConfig inetPton argv = .ok config ↔
        ∃ groups : List (OptionGroup inetPton),
          argv.drop 1 = groups.flatMap OptionGroup.args ∧
          Determines (groups.map OptionGroup.setting) config) ∧
    ∀ (executable : CString) (groups others : List (OptionGroup inetPton))
      (config : EndpointConfig), others.Perm groups →
        tryParseEndpointConfig inetPton (executable :: groups.flatMap OptionGroup.args) =
          .ok config →
        tryParseEndpointConfig inetPton (executable :: others.flatMap OptionGroup.args) =
          .ok config := by
  constructor
  · intro argv config
    rw [tryParse_eq_ok]
    constructor
    · rintro ⟨final, accepted, complete, same⟩
      obtain ⟨groups, split, filled⟩ := groups_of_parseArgs accepted
      exact ⟨groups, split, determines_iff.mpr ⟨final, filled, complete, same⟩⟩
    · rintro ⟨groups, split, determines⟩
      obtain ⟨final, filled, complete, same⟩ := determines_iff.mp determines
      rw [split]
      exact ⟨final, parseArgs_groups.mpr filled, complete, same⟩
  · intro executable groups others config perm accepted
    exact tryParse_groups.mpr ((tryParse_groups.mp accepted).of_perm (perm.map _))

theorem tryParse_iff_grammar_reversed :
    let inetPton := fun text : CString =>
      if text = cstring "10.0.0.1" then some 0x0100000A
      else if text = cstring "10.0.0.2" then some 0x0200000A
      else none
    let config : EndpointConfig := {
      shmName := cstring "ring"
      slots := 16
      localIpv4Be := 0x0100000A
      peerIpv4Be := 0x0200000A
      dataPort := 65535
      batchingEnabled := true
      nextHopMac := #v[0xAA, 0, 0, 0, 0, 0x0F] }
    ∃ groups : List (OptionGroup inetPton),
      groups.flatMap OptionGroup.args =
        ["--SHM", "ring", "--batching", "--slots", "0016", "--local-ip", "10.0.0.1", "--peer-ip",
          "10.0.0.2", "--batching", "--data-port", "65535", "--next-hop-mac",
          "aA:00:00:00:00:0f"].map cstring ∧
      tryParseEndpointConfig inetPton
        (cstring "gateway" :: groups.reverse.flatMap OptionGroup.args) = .ok config := by
  intro inetPton config
  have accepted : tryParseEndpointConfig inetPton
      (["gateway", "--SHM", "ring", "--batching", "--slots", "0016", "--local-ip", "10.0.0.1",
        "--peer-ip", "10.0.0.2", "--batching", "--data-port", "65535", "--next-hop-mac",
        "aA:00:00:00:00:0f"].map cstring) = .ok config := by
    decide +kernel
  obtain ⟨groups, split, -⟩ := ((tryParse_iff_grammar inetPton).1 _ config).mp accepted
  refine ⟨groups, split.symm, ?_⟩
  apply (tryParse_iff_grammar inetPton).2 _ groups _ config groups.reverse_perm
  rw [← split]
  exact accepted

end Lldt.Transport
