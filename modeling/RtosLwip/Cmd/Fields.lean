import RtosLwip.Cmd.Values

/-!
# What the Parameters Become

What each field of the configuration is after the merge of `udpCmdSetup.c`, as
a function of what it was and of the one value of the message that belongs to
it. The numbers that are compared one by one are a table: each has its key, its
field and the way it is stored, and one lemma is enough for all of them.

## Main definitions

* `Kind`: How a number is stored, and which value stands for no value.
* `Number`, `Name`, `Address`: The parameters of one kind, with their keys and
  their fields.
* `mergeNetMode`, `mergeMac`, `mergeName`: The parameters of their own kind.

## Theorems

* `Number.get_compareAll` and its like: A field after the merge.
* `compareAll_dest`: The destination, which two parameters have a part in.
* `compareAll_rest`: The fields that no parameter is for.
-/

namespace RtosLwip

namespace Cmd

/-- How a number is stored. -/
inductive Kind where
  | integer
  | short
  | char
  | flag
  deriving DecidableEq

namespace Kind

/-- The width of the field. -/
def bits : Kind → Nat
  | integer => 32
  | short => 16
  | char => 8
  | flag => 8

/-- What a number becomes within the width of the field. -/
def value (k : Kind) (z : Int) : Nat := (fitU32 z).toNat % 2 ^ k.bits

/-- The value that is taken for no value: 0, or 255 where the value plus one is
    kept in a byte. -/
def absent : Kind → Nat
  | flag => 255
  | _ => 0

/-- The field after the merge. -/
def store (k : Kind) (old : Nat) : Option Int → Nat
  | none => old
  | some z => if k.value z = k.absent then old else k.value z

/-- A field keeps its value. -/
theorem store_eq_iff (k : Kind) (old : Nat) (v : Option Int) :
    k.store old v = old ↔ ∀ z, v = some z → k.value z = k.absent ∨ k.value z = old := by
  cases v with
  | none => exact iff_of_true rfl nofun
  | some z =>
      simp only [Option.some.injEq, forall_eq', store]
      by_cases h : k.value z = k.absent
      · rw [if_pos h]
        exact iff_of_true rfl (Or.inl h)
      · rw [if_neg h]
        exact ⟨Or.inr, fun hz => hz.resolve_left h⟩

end Kind

section Checks

theorem checkIntegerField_fst (dest src : UInt32) :
    (checkIntegerField dest src).1 = if src = 0 then dest else src := by
  unfold checkIntegerField
  by_cases h : src = 0
  · simp [h]
  · by_cases hd : src = dest
    · simp [hd]
    · simp [h, hd]

theorem checkShortField_fst (dest src : UInt16) :
    (checkShortField dest src).1 = if src = 0 then dest else src := by
  unfold checkShortField
  by_cases h : src = 0
  · simp [h]
  · by_cases hd : src = dest
    · simp [hd]
    · simp [h, hd]

theorem checkBoolField_fst (dest src : UInt8) (isBool : Bool) :
    (checkBoolField dest src isBool).1 =
      if src = 0 then dest else if isBool then src - 1 else src := by
  unfold checkBoolField
  by_cases h : src = 0
  · simp [h]
  · cases isBool with
    | false => by_cases hd : dest = src <;> simp [h, hd]
    | true => by_cases hd : dest = src - 1 <;> simp [h, hd]

variable (v : Option Int)

theorem integer_store (dest : UInt32) :
    (checkIntegerField dest ((v.map fitU32).getD 0)).1.toNat =
      Kind.integer.store dest.toNat v := by
  rw [checkIntegerField_fst]
  cases v with
  | none => rfl
  | some z =>
      have hvalue : Kind.integer.value z = (fitU32 z).toNat := Nat.mod_eq_of_lt (UInt32.toNat_lt _)
      simp only [Option.map_some, Option.getD_some, Kind.store, hvalue, Kind.absent,
        ← UInt32.toNat_inj]
      split <;> simp_all

theorem short_store (dest : UInt16) :
    (checkShortField dest ((v.map fun z => (fitU32 z).toUInt16).getD 0)).1.toNat =
      Kind.short.store dest.toNat v := by
  rw [checkShortField_fst]
  cases v with
  | none => rfl
  | some z =>
      have hvalue : Kind.short.value z = (fitU32 z).toUInt16.toNat := (UInt32.toNat_toUInt16 _).symm
      simp only [Option.map_some, Option.getD_some, Kind.store, hvalue, Kind.absent,
        ← UInt16.toNat_inj]
      split <;> simp_all

theorem char_store (dest : UInt8) :
    (checkBoolField dest ((v.map fun z => (fitU32 z).toUInt8).getD 0) false).1.toNat =
      Kind.char.store dest.toNat v := by
  rw [checkBoolField_fst]
  cases v with
  | none => rfl
  | some z =>
      have hvalue : Kind.char.value z = (fitU32 z).toUInt8.toNat := (UInt32.toNat_toUInt8 _).symm
      simp only [Option.map_some, Option.getD_some, Kind.store, hvalue, Kind.absent,
        ← UInt8.toNat_inj]
      split <;> simp_all

/-- A field has changed if it is another one. -/
theorem checkBoolField_changed_iff (dest src : UInt8) (isBool : Bool) :
    (checkBoolField dest src isBool).2 = true ↔ (checkBoolField dest src isBool).1 ≠ dest := by
  unfold checkBoolField
  split_ifs with _ _ hne hne
  · exact iff_of_true rfl (Ne.symm hne)
  · exact iff_of_false id (not_not.mpr rfl)
  · exact iff_of_true rfl (Ne.symm hne)
  · exact iff_of_false id (not_not.mpr rfl)
  · exact iff_of_false id (not_not.mpr rfl)

theorem flagField_some (w : UInt32) : flagField (some w) = w.toUInt8 + 1 := by
  simp [flagField, UInt32.toUInt8_add]

theorem add_one_eq_zero_iff (b : UInt8) : b + 1 = 0 ↔ b.toNat = 255 := by
  have := b.toNat_lt
  rw [← UInt8.toNat_inj, UInt8.toNat_add]
  simp only [UInt8.reduceToNat]
  omega

theorem flag_value (z : Int) : Kind.flag.value z = (fitU32 z).toUInt8.toNat :=
  (UInt32.toNat_toUInt8 _).symm

theorem flag_store (dest : UInt8) :
    (checkBoolField dest (flagField (v.map fitU32)) true).1.toNat =
      Kind.flag.store dest.toNat v := by
  rw [checkBoolField_fst]
  cases v with
  | none => rfl
  | some z =>
      simp only [Option.map_some, Kind.store, flag_value, Kind.absent, flagField_some,
        add_one_eq_zero_iff]
      split <;> simp

end Checks

/-- The parameters that are given as numbers and merged one by one. -/
inductive Number where
  | isDipOn
  | baudRate
  | charLength
  | stopbits
  | isMCast
  | vport
  | aport
  | dport
  | sport
  | vWidth
  | vHeight
  | vFrameRate
  | vDepth
  | vIsInterlaced
  | vIsSegmented
  | aSampleRate
  | aDepth
  | aChannels
  deriving DecidableEq

namespace Number

def key : Number → Key
  | isDipOn => .isDip
  | baudRate => .rsBaudrate
  | charLength => .rsDatabits
  | stopbits => .rsStopbits
  | isMCast => .isMcast
  | vport => .videoPort
  | aport => .audioPort
  | dport => .adPort
  | sport => .stPort
  | vWidth => .videoWidth
  | vHeight => .videoHeight
  | vFrameRate => .videoFramerate
  | vDepth => .videoDepth
  | vIsInterlaced => .videoInterlaced
  | vIsSegmented => .videoSegmented
  | aSampleRate => .audioSampeRate
  | aDepth => .audioDepth
  | aChannels => .audioChannels

def kind : Number → Kind
  | isDipOn => .flag
  | baudRate => .integer
  | charLength => .char
  | stopbits => .char
  | isMCast => .flag
  | vport => .short
  | aport => .short
  | dport => .short
  | sport => .short
  | vWidth => .short
  | vHeight => .short
  | vFrameRate => .char
  | vDepth => .char
  | vIsInterlaced => .flag
  | vIsSegmented => .flag
  | aSampleRate => .short
  | aDepth => .char
  | aChannels => .char

/-- The field. -/
def get : Number → RuntimeCfg → Nat
  | isDipOn, cfg => cfg.isDipOn.toNat
  | baudRate, cfg => cfg.rs232Cfg.baudRate.toNat
  | charLength, cfg => cfg.rs232Cfg.charLength.toNat
  | stopbits, cfg => cfg.rs232Cfg.stopbits.toNat
  | isMCast, cfg => cfg.isMCast.toNat
  | vport, cfg => cfg.dest.vport.toNat
  | aport, cfg => cfg.dest.aport.toNat
  | dport, cfg => cfg.dest.dport.toNat
  | sport, cfg => cfg.dest.sport.toNat
  | vWidth, cfg => cfg.runtime.vWidth.toNat
  | vHeight, cfg => cfg.runtime.vHeight.toNat
  | vFrameRate, cfg => cfg.runtime.vFrameRate.toNat
  | vDepth, cfg => cfg.runtime.vDepth.toNat
  | vIsInterlaced, cfg => cfg.runtime.vIsInterlaced.toNat
  | vIsSegmented, cfg => cfg.runtime.vIsSegmented.toNat
  | aSampleRate, cfg => cfg.runtime.aSampleRate.toNat
  | aDepth, cfg => cfg.runtime.aDepth.toNat
  | aChannels, cfg => cfg.runtime.aChannels.toNat

end Number

/-- The MAC address of a group, from the last three bytes of its IP address. -/
def groupMac (b c d : UInt8) : MacAddress := #v[0x01, 0x00, 0x5E, b &&& 0x7F, c, d]

/-- The MAC address that goes with a new destination address. Only a receiver
    works it out. -/
def destMac (isTx : UInt8) (mac : MacAddress) (ip : UInt32) : MacAddress :=
  if isTx = 0 ∧ isMulticast ip then
    groupMac (ipPart ip 1) (ipPart ip 2) (ipPart ip 3)
  else mac

def mergeNetMode (old new : UInt8) : UInt8 :=
  if new ≠ 0 ∧ old ≠ new - 1 then (if new - 1 = 0 then old &&& 0xFE else old ||| 1) else old

section Stages

variable (rx : RuntimeCfg) (s : Setup)

theorem extCmnNewDestIpEffective_cfg (ip : UInt32) :
    (extCmnNewDestIpEffective ip s).cfg =
      { s.cfg with dest.ip := ip, dest.mac := destMac s.cfg.isTx s.cfg.dest.mac ip } := by
  unfold extCmnNewDestIpEffective destMac groupMac
  by_cases htx : s.cfg.isTx = 0
  · by_cases hm : isMulticast ip = true
    · simp [htx, hm, RuntimeCfg.isTransmitter, extTxMulticastIP2Mac]
    · simp [htx, hm, RuntimeCfg.isTransmitter, extTxMulticastIP2Mac]
  · simp [htx, RuntimeCfg.isTransmitter]

@[simp] theorem compareNetMode_cfg : (compareNetMode rx s).cfg =
    { s.cfg with netMode := mergeNetMode s.cfg.netMode rx.netMode } := by
  unfold compareNetMode mergeNetMode
  split <;> simp [setDhcp]

@[simp] theorem compareAddresses_cfg : (compareAddresses rx s).cfg =
    { s.cfg with
      local.ip := if rx.local.ip ≠ ipaddrNone then rx.local.ip else s.cfg.local.ip
      ipMask := if rx.ipMask ≠ ipaddrNone then rx.ipMask else s.cfg.ipMask
      ipGateway := if rx.ipGateway ≠ ipaddrNone then rx.ipGateway else s.cfg.ipGateway } := by
  simp [compareAddresses]

/-- A MAC address is given and new. -/
abbrev NewMac (rx : RuntimeCfg) (old : MacAddress) : Prop :=
  ¬ rx.local.mac.isNull ∧ old ≠ rx.local.mac

@[simp] theorem compareMac_cfg : (compareMac rx s).cfg =
    { s.cfg with
      local.mac := if NewMac rx s.cfg.local.mac then rx.local.mac else s.cfg.local.mac
      isMacConfiged := if NewMac rx s.cfg.local.mac then 1 else s.cfg.isMacConfiged } := by
  unfold compareMac
  by_cases h : NewMac rx s.cfg.local.mac
  · simp only [if_pos h, Setup.setType_cfg]
  · simp only [if_neg h]

/-- The name after the merge. -/
def mergeName (old new : CString 31) : CString 31 :=
  if new.val ≠ [] ∧ ¬ strcasecmpEq old.val new.val then .copy 31 new.val else old

@[simp] theorem compareName_cfg : (compareName rx s).cfg =
    { s.cfg with name := mergeName s.cfg.name rx.name } := by
  unfold compareName mergeName
  split <;> simp

/-- The DIP switch is turned off. -/
abbrev DipTurnedOff (rx : RuntimeCfg) (old : UInt8) : Prop :=
  (checkBoolField old rx.isDipOn true).2 ∧ (checkBoolField old rx.isDipOn true).1 = 0

@[simp] theorem compareDip_cfg : (compareDip rx s).cfg =
    { s.cfg with
      isDipOn := (checkBoolField s.cfg.isDipOn rx.isDipOn true).1
      dest.ip := if DipTurnedOff rx s.cfg.isDipOn then s.cfg.ipMulticast else s.cfg.dest.ip
      dest.mac :=
        if DipTurnedOff rx s.cfg.isDipOn then
          destMac s.cfg.isTx s.cfg.dest.mac s.cfg.ipMulticast
        else s.cfg.dest.mac } := by
  unfold compareDip DipTurnedOff
  generalize checkBoolField s.cfg.isDipOn rx.isDipOn true = r
  obtain ⟨isDipOn, _ | _⟩ := r
  · simp
  · by_cases h : isDipOn = 0
    · simp [h, RuntimeCfg.dipOn, extCmnNewDestIpEffective_cfg]
    · simp [h, RuntimeCfg.dipOn]

/-- A multicast address is given and new. -/
abbrev NewMulticast (rx : RuntimeCfg) (old : UInt32) : Prop :=
  rx.dest.ip ≠ ipaddrNone ∧ rx.dest.ip ≠ old

@[simp] theorem compareMulticast_cfg : (compareMulticast rx s).cfg =
    { s.cfg with
      ipMulticast := if NewMulticast rx s.cfg.ipMulticast then rx.dest.ip else s.cfg.ipMulticast
      dest.ip :=
        if NewMulticast rx s.cfg.ipMulticast ∧ s.cfg.isDipOn = 0 then rx.dest.ip else s.cfg.dest.ip
      dest.mac :=
        if NewMulticast rx s.cfg.ipMulticast ∧ s.cfg.isDipOn = 0 then
          destMac s.cfg.isTx s.cfg.dest.mac rx.dest.ip
        else s.cfg.dest.mac } := by
  unfold compareMulticast
  by_cases hnew : NewMulticast rx s.cfg.ipMulticast
  · by_cases h : s.cfg.isDipOn = 0
    · simp [hnew, h, RuntimeCfg.dipOn, extCmnNewDestIpEffective_cfg]
    · simp [hnew, h, RuntimeCfg.dipOn]
  · simp only [hnew, false_and, if_false]

@[simp] theorem compareRs232Config_cfg : (compareRs232Config rx s).cfg =
    { s.cfg with rs232Cfg := ⟨(checkIntegerField s.cfg.rs232Cfg.baudRate rx.rs232Cfg.baudRate).1,
      (checkBoolField s.cfg.rs232Cfg.charLength rx.rs232Cfg.charLength false).1,
      (checkBoolField s.cfg.rs232Cfg.parityType rx.rs232Cfg.parityType true).1,
      (checkBoolField s.cfg.rs232Cfg.stopbits rx.rs232Cfg.stopbits false).1⟩ } := by
  simp [compareRs232Config]

@[simp] theorem compareIsMCast_cfg : (compareIsMCast rx s).cfg =
    { s.cfg with isMCast := (checkBoolField s.cfg.isMCast rx.isMCast true).1 } := by
  simp [compareIsMCast]

@[simp] theorem comparePorts_cfg : (comparePorts rx s).cfg =
    { s.cfg with dest := ⟨s.cfg.dest.mac, s.cfg.dest.ip,
      (checkShortField s.cfg.dest.vport rx.dest.vport).1,
      (checkShortField s.cfg.dest.aport rx.dest.aport).1,
      (checkShortField s.cfg.dest.dport rx.dest.dport).1,
      (checkShortField s.cfg.dest.sport rx.dest.sport).1⟩ } := by
  simp [comparePorts]

@[simp] theorem compareMediaCfg_cfg : (compareMediaCfg rx s).cfg =
    { s.cfg with runtime := {
        vWidth := (checkShortField s.cfg.runtime.vWidth rx.runtime.vWidth).1
        vHeight := (checkShortField s.cfg.runtime.vHeight rx.runtime.vHeight).1
        vFrameRate := (checkBoolField s.cfg.runtime.vFrameRate rx.runtime.vFrameRate false).1
        vDepth := (checkBoolField s.cfg.runtime.vDepth rx.runtime.vDepth false).1
        vColorSpace := (checkBoolField s.cfg.runtime.vColorSpace rx.runtime.vColorSpace true).1
        vIsInterlaced :=
          (checkBoolField s.cfg.runtime.vIsInterlaced rx.runtime.vIsInterlaced true).1
        vIsSegmented := (checkBoolField s.cfg.runtime.vIsSegmented rx.runtime.vIsSegmented true).1
        aSampleRate := (checkShortField s.cfg.runtime.aSampleRate rx.runtime.aSampleRate).1
        aChannels := (checkBoolField s.cfg.runtime.aChannels rx.runtime.aChannels false).1
        aDepth := (checkBoolField s.cfg.runtime.aDepth rx.runtime.aDepth false).1
        isConnect := s.cfg.runtime.isConnect } } := by
  simp [compareMediaCfg]

end Stages

/-- The lowest bit of `netMode` is all that is written. -/
theorem or_one_eq_iff (b : UInt8) : b ||| 1 = b ↔ b &&& 1 ≠ 0 := by
  obtain ⟨⟨b⟩⟩ := b
  revert b
  decide +kernel

theorem and_fe_eq_iff (b : UInt8) : b &&& 0xFE = b ↔ b &&& 1 = 0 := by
  obtain ⟨⟨b⟩⟩ := b
  revert b
  decide +kernel

theorem mergeNetMode_eq_iff (old : UInt8) (v : Option Int) :
    mergeNetMode old (flagField (v.map fitU32)) = old ↔ ∀ z, v = some z →
      Kind.flag.value z = Kind.flag.absent ∨ Kind.flag.value z = old.toNat ∨
        (Kind.flag.value z ≠ 0 ↔ old &&& 1 ≠ 0) := by
  cases v with
  | none => exact iff_of_true rfl nofun
  | some z =>
      simp only [Option.map_some, Option.some.injEq, forall_eq', flagField_some, mergeNetMode,
        flag_value, Kind.absent]
      generalize (fitU32 z).toUInt8 = b
      rw [← add_one_eq_zero_iff, UInt8.add_sub_cancel]
      by_cases hb : b + 1 = 0
      · simp [hb]
      · by_cases hold : old = b
        · simp [hold]
        · have hne : ¬ b.toNat = old.toNat := fun h => hold (UInt8.toNat_inj.mp h).symm
          have hzero : b.toNat = 0 ↔ b = 0 := UInt8.toNat_inj (b := 0)
          simp only [hb, hold, hne, ne_eq, not_false_eq_true, and_self, if_true, false_or, hzero]
          by_cases hoff : b = 0
          · simp [hoff, and_fe_eq_iff]
          · simp [hoff, or_one_eq_iff]

theorem mergeName_eq_iff (old new : CString 31) :
    mergeName old new = old ↔ new.val = [] ∨ strcasecmpEq old.val new.val = true := by
  unfold mergeName
  by_cases h : new.val ≠ [] ∧ ¬ strcasecmpEq old.val new.val
  · rw [if_pos h]
    refine iff_of_false (fun heq => h.2 ?_) ?_
    · have hval := congrArg CString.val heq
      rw [CString.copy_val new.nul_free new.fits] at hval
      rw [hval]
      exact decide_eq_true rfl
    · rintro (hnil | hsame)
      · exact h.1 hnil
      · exact h.2 hsame
  · rw [if_neg h]
    refine iff_of_true rfl ?_
    by_contra hn
    rw [not_or] at hn
    exact h hn

/-- The configuration after the merge. -/
theorem compareAll_cfg (rx run : RuntimeCfg) : (compareAll rx run).cfg =
    { run with
      rs232Cfg := ⟨(checkIntegerField run.rs232Cfg.baudRate rx.rs232Cfg.baudRate).1,
        (checkBoolField run.rs232Cfg.charLength rx.rs232Cfg.charLength false).1,
        (checkBoolField run.rs232Cfg.parityType rx.rs232Cfg.parityType true).1,
        (checkBoolField run.rs232Cfg.stopbits rx.rs232Cfg.stopbits false).1⟩
      isMCast := (checkBoolField run.isMCast rx.isMCast true).1
      isDipOn := (checkBoolField run.isDipOn rx.isDipOn true).1
      netMode := mergeNetMode run.netMode rx.netMode
      local.mac := if NewMac rx run.local.mac then rx.local.mac else run.local.mac
      local.ip := if rx.local.ip ≠ ipaddrNone then rx.local.ip else run.local.ip
      ipMask := if rx.ipMask ≠ ipaddrNone then rx.ipMask else run.ipMask
      ipGateway := if rx.ipGateway ≠ ipaddrNone then rx.ipGateway else run.ipGateway
      ipMulticast := if NewMulticast rx run.ipMulticast then rx.dest.ip else run.ipMulticast
      isMacConfiged := if NewMac rx run.local.mac then 1 else run.isMacConfiged
      dest := (compareAll rx run).cfg.dest
      name := mergeName run.name rx.name
      runtime := (compareMediaCfg rx ⟨run, [], []⟩).cfg.runtime } := by
  simp only [compareAll, compareProtocolConfig, compareSystemCfg, compareMediaCfg_cfg,
    comparePorts_cfg, compareMulticast_cfg, compareIsMCast_cfg, compareRs232Config_cfg,
    compareDip_cfg, compareName_cfg, compareMac_cfg, compareAddresses_cfg, compareNetMode_cfg]

/-- The destination after the merge. The DIP switch is dealt with first. -/
theorem compareAll_dest (rx run : RuntimeCfg) : (compareAll rx run).cfg.dest =
    let isDipOn := (checkBoolField run.isDipOn rx.isDipOn true).1
    let ip := if DipTurnedOff rx run.isDipOn then run.ipMulticast else run.dest.ip
    let mac :=
      if DipTurnedOff rx run.isDipOn then destMac run.isTx run.dest.mac run.ipMulticast
      else run.dest.mac
    ⟨if NewMulticast rx run.ipMulticast ∧ isDipOn = 0 then destMac run.isTx mac rx.dest.ip else mac,
      if NewMulticast rx run.ipMulticast ∧ isDipOn = 0 then rx.dest.ip else ip,
      (checkShortField run.dest.vport rx.dest.vport).1,
      (checkShortField run.dest.aport rx.dest.aport).1,
      (checkShortField run.dest.dport rx.dest.dport).1,
      (checkShortField run.dest.sport rx.dest.sport).1⟩ := by
  simp only [compareAll, compareProtocolConfig, compareSystemCfg, compareMediaCfg_cfg,
    comparePorts_cfg, compareMulticast_cfg, compareIsMCast_cfg, compareRs232Config_cfg,
    compareDip_cfg, compareName_cfg, compareMac_cfg, compareAddresses_cfg, compareNetMode_cfg]


/-- The destination only follows the DIP switch and the multicast address. -/
theorem compareAll_dest_eq {rx run : RuntimeCfg}
    (hdip : (compareAll rx run).cfg.isDipOn = run.isDipOn)
    (hip : (compareAll rx run).cfg.ipMulticast = run.ipMulticast) :
    (compareAll rx run).cfg.dest.ip = run.dest.ip ∧
      (compareAll rx run).cfg.dest.mac = run.dest.mac := by
  have hoff : ¬ DipTurnedOff rx run.isDipOn := by
    rintro ⟨hchanged, -⟩
    rw [compareAll_cfg] at hdip
    exact (checkBoolField_changed_iff _ _ _).mp hchanged hdip
  have hold : ¬ NewMulticast rx run.ipMulticast := by
    intro hnew
    rw [compareAll_cfg] at hip
    dsimp only at hip
    rw [if_pos hnew] at hip
    exact hnew.2 hip
  rw [compareAll_dest]
  simp only [hoff, hold, false_and, if_false, and_self]

namespace Number

/-- A number that passes the check for its parameter. -/
def valid : Number → Int → Bool
  | baudRate, z => validBaudRate (fitU32 z)
  | charLength, z => validCharLength (fitU32 z).toUInt8
  | stopbits, z => validStopbits (fitU32 z).toUInt8
  | aSampleRate, z => validSampleRate (fitU32 z).toUInt16
  | aDepth, z => validAudioDepth (fitU32 z).toUInt8
  | aChannels, z => validAudioChannels (fitU32 z).toUInt8
  | _, _ => true

variable (f : Number) (d : Doc) (cfg : RuntimeCfg)

/-- A number after the merge. -/
theorem get_compareAll : f.get (compareAll d.scratch cfg).cfg =
    f.kind.store (f.get cfg) (d.number f.key.text) := by
  rw [compareAll_cfg, compareAll_dest, compareMediaCfg_cfg]
  cases f
  all_goals
    first
      | exact integer_store (d.number Key.rsBaudrate.text) _
      | exact short_store (d.number (Key.text _)) _
      | exact char_store (d.number (Key.text _)) _
      | exact flag_store (d.number (Key.text _)) _

end Number

/-- The parameters that are given by a name. -/
inductive Enumeration where
  | parityType
  | vColorSpace
  deriving DecidableEq

namespace Enumeration

def key : Enumeration → Key
  | parityType => .rsParity
  | vColorSpace => .videoColorspace

def strType : Enumeration → StrType
  | parityType => .rsParity
  | vColorSpace => .vColorSpace

/-- The field. -/
def get : Enumeration → RuntimeCfg → Nat
  | parityType, cfg => cfg.rs232Cfg.parityType.toNat
  | vColorSpace, cfg => cfg.runtime.vColorSpace.toNat

/-- The type of the name that is given, if it is known. -/
def given (f : Enumeration) (d : Doc) : Option UInt16 :=
  (d.stringIn f.key 32).bind (extCmnTypeFind f.strType)

theorem extCmnTypeFind_nil (strType : StrType) : extCmnTypeFind strType [] = none := by
  cases strType <;> rfl

/-- The types of the tables are small. -/
theorem extCmnTypeFind_le {strType : StrType} {s : List UInt8} {type : UInt16}
    (h : extCmnTypeFind strType s = some type) : type.toNat ≤ 11 := by
  unfold extCmnTypeFind at h
  obtain ⟨e, he, rfl⟩ := Option.map_eq_some_iff.mp h
  have hmem := List.mem_of_find?_eq_some he
  have hall : ∀ e ∈ strType.table, e.1.toNat ≤ 11 := by
    cases strType <;> decide
  exact hall e hmem

/-- The field of the scratch configuration is the type plus one. -/
theorem enumField_eq (strType : StrType) (v : Option (List UInt8)) :
    enumField strType v =
      ((v.bind (extCmnTypeFind strType)).map fun t => (t + 1).toUInt8).getD 0 := by
  rcases v with _ | ⟨_ | ⟨c, s⟩⟩
  · rfl
  · rw [Option.bind_some, extCmnTypeFind_nil]
    rfl
  · rw [Option.bind_some]
    unfold enumField
    dsimp only
    cases extCmnTypeFind strType (c :: s) <;> rfl

/-- A type that is kept plus one is taken over. -/
theorem checkBoolField_enumField (strType : StrType) (dest : UInt8) (v : Option (List UInt8)) :
    (checkBoolField dest (enumField strType v) true).1.toNat =
      ((v.bind (extCmnTypeFind strType)).map UInt16.toNat).getD dest.toNat := by
  rw [checkBoolField_fst, enumField_eq]
  cases h : v.bind (extCmnTypeFind strType) with
  | none => rfl
  | some type =>
      obtain ⟨s, -, hs⟩ := Option.bind_eq_some_iff.mp h
      have hle := extCmnTypeFind_le hs
      have hstored : (type + 1).toUInt8.toNat = type.toNat + 1 := by
        rw [UInt16.toNat_toUInt8, UInt16.toNat_add]
        simp only [UInt16.reduceToNat]
        omega
      have hne : (type + 1).toUInt8 ≠ 0 := by
        intro hzero
        rw [hzero] at hstored
        simp at hstored
      have hone : (1 : UInt8) ≤ (type + 1).toUInt8 := by
        rw [UInt8.le_iff_toNat_le, hstored]
        exact Nat.le_add_left 1 _
      simp only [Option.map_some, Option.getD_some, if_neg hne, if_true]
      rw [UInt8.toNat_sub_of_le _ _ hone, hstored]
      exact Nat.add_sub_cancel _ 1

/-- An enumeration after the merge. -/
theorem get_compareAll (f : Enumeration) (d : Doc) (cfg : RuntimeCfg) :
    f.get (compareAll d.scratch cfg).cfg =
      ((f.given d).map UInt16.toNat).getD (f.get cfg) := by
  rw [compareAll_cfg, compareMediaCfg_cfg]
  cases f <;> exact checkBoolField_enumField _ _ _

end Enumeration

/-- The parameters that are given as an address. -/
inductive Address where
  | ip
  | mask
  | gateway
  | multicast
  deriving DecidableEq

namespace Address

def key : Address → Key
  | ip => .ip
  | mask => .mask
  | gateway => .gateway
  | multicast => .mcastIp

/-- The field. -/
def get : Address → RuntimeCfg → UInt32
  | ip, cfg => cfg.local.ip
  | mask, cfg => cfg.ipMask
  | gateway, cfg => cfg.ipGateway
  | multicast, cfg => cfg.ipMulticast

/-- A multicast address is only compared to find out whether it is new. -/
theorem ite_new (given old : UInt32) :
    (if given ≠ ipaddrNone ∧ given ≠ old then given else old) =
      if given = ipaddrNone then old else given := by
  by_cases hnone : given = ipaddrNone
  · simp [hnone]
  · by_cases hold : given = old
    · simp [hold]
    · simp [hnone, hold]

/-- An address after the merge. -/
theorem get_compareAll (f : Address) (d : Doc) (cfg : RuntimeCfg) :
    f.get (compareAll d.scratch cfg).cfg =
      if (d.ipAddress f.key).1 = ipaddrNone then f.get cfg else (d.ipAddress f.key).1 := by
  rw [compareAll_cfg]
  cases f
  case multicast => exact ite_new _ _
  all_goals exact ite_not _ _ _

end Address

end Cmd

end RtosLwip
