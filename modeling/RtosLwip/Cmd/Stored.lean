import RtosLwip.Cmd.Unchanged

/-!
# What a Message Stores

The values of a `set_param` command that is carried out, against the fields they
are for. A value is lost where it is the one that stands for no value in its
field, and it is changed where it does not fit into the field. Two parameters
are lost for other reasons: a name that only differs in upper and lower case,
and `IsConnect`, which starts or stops the device and has a field that is never
written.

## Main definitions

* `Stored`: Each value that is given is in its field.
* `StoresGiven`: What a datagram should store.
* `Storable`: The values that are stored.

## Theorems

* `stored_compareAll_iff`: The fields after a merge.
* `storesGiven_iff`: When a datagram stores what it gives.
-/

namespace RtosLwip

namespace Cmd

/-- Each value that the message gives is in its field. The multicast address is
    kept for the time when the DIP switch is off, and then it is the destination. -/
structure Stored (m : Doc) (run new : RuntimeCfg) : Prop where
  number : ∀ (f : Number) (z : Int), f.given m = some z → (f.get new : Int) = z
  enumeration : ∀ (f : Enumeration) (type : UInt16), f.given m = some type →
    f.get new = type.toNat
  address : ∀ (f : Address) (ip : UInt32), f.given run m = some ip → f.get new = ip
  dest : ∀ ip : UInt32, Address.multicast.given run m = some ip → new.dipOn = false →
    new.dest.ip = ip
  netMode : ∀ z : Int, m.number Key.dhcp.text = some z → (new.dhcpIsEnable.toNat : Int) = z
  mac : ∀ mac : MacAddress, m.macAddress .mac .zero = (mac, true) → new.local.mac = mac
  name : ∀ s : List UInt8, m.string Key.cName.text = some s → new.name.val = s
  isConnect : ∀ z : Int, m.number Key.isConnect.text = some z →
    (new.runtime.isConnect.toNat : Int) = z

/-- A `set_param` command that is carried out stores the values it gives. -/
def StoresGiven (dev : Device) (datagram : List UInt8) (ip : UInt32) (port : UInt16) : Prop :=
  let p := (parseDatagram dev datagram).2
  (parseDatagram dev datagram).1 = true → commandOf p.cmd.val = some .setParams →
    Acts dev.cfg p →
      Stored p.doc.own dev.cfg (extUdpCmdThread dev datagram ip port).1.cfg

/-- The DIP switch after the merge. -/
def Doc.dipAfter (d : Doc) (cfg : RuntimeCfg) : Nat :=
  Kind.flag.store cfg.isDipOn.toNat (d.number Key.isDip.text)

/-- The destination address before the multicast address is looked at. -/
def Doc.destBefore (d : Doc) (cfg : RuntimeCfg) : UInt32 :=
  if cfg.dipOn ∧ d.dipAfter cfg = 0 then cfg.ipMulticast else cfg.dest.ip

/-- The values fit into their fields, and none of them stands for no value, or
    the field holds it already. -/
structure Storable (d : Doc) (cfg : RuntimeCfg) : Prop where
  number : ∀ (f : Number) (z : Int), f.given d.own = some z →
    0 ≤ z ∧ z < 2 ^ f.kind.bits ∧ (z = f.kind.absent → f.get cfg = f.kind.absent)
  address : ∀ f : Address, f.given cfg d.own = some ipaddrNone → f.get cfg = ipaddrNone
  dest : ∀ ip : UInt32, Address.multicast.given cfg d.own = some ip → d.dipAfter cfg = 0 →
    (ip ≠ ipaddrNone ∧ ip ≠ cfg.ipMulticast) ∨ d.destBefore cfg = ip
  netMode : ∀ z : Int, d.own.number Key.dhcp.text = some z → z = 0 ∨ z = 1
  mac : ∀ mac : MacAddress, d.own.macAddress .mac .zero = (mac, true) → mac.isNull = true →
    cfg.local.mac = mac
  name : ∀ s : List UInt8, d.own.string Key.cName.text = some s →
    s = cfg.name.val ∨ (s ≠ [] ∧ s.length ≤ 31 ∧ strcasecmpEq cfg.name.val s = false)
  isConnect : ∀ z : Int, d.own.number Key.isConnect.text = some z →
    z = cfg.runtime.isConnect.toNat

theorem Kind.bits_le (k : Kind) : k.bits ≤ 32 := by
  cases k <;> decide

theorem Kind.value_of_fits (k : Kind) {z : Int} (h0 : 0 ≤ z) (h : z < 2 ^ k.bits) :
    (k.value z : Int) = z := by
  have hle : (2 : Int) ^ k.bits ≤ 2 ^ 32 := pow_le_pow_right₀ (by decide) k.bits_le
  have hfit := fitU32_toNat h0 (lt_of_lt_of_le h hle)
  unfold Kind.value
  rw [Int.natCast_mod, hfit]
  exact Int.emod_eq_of_lt h0 (by exact_mod_cast h)

theorem Kind.value_lt (k : Kind) (z : Int) : k.value z < 2 ^ k.bits :=
  Nat.mod_lt _ (Nat.two_pow_pos _)

/-- A number is stored if it fits and does not stand for no value. -/
theorem Kind.store_eq_given_iff (k : Kind) {old : Nat} (hold : old < 2 ^ k.bits) (z : Int) :
    (k.store old (some z) : Int) = z ↔
      0 ≤ z ∧ z < 2 ^ k.bits ∧ (z = k.absent → old = k.absent) := by
  have hlt : k.store old (some z) < 2 ^ k.bits := by
    unfold Kind.store
    dsimp only
    split
    · exact hold
    · exact k.value_lt z
  by_cases hfits : 0 ≤ z ∧ z < 2 ^ k.bits
  · have hvalue := k.value_of_fits hfits.1 hfits.2
    simp only [hfits.1, hfits.2, true_and, Kind.store]
    by_cases habsent : k.value z = k.absent
    · rw [if_pos habsent]
      have hz : z = k.absent := by rw [← hvalue, habsent]
      rw [hz]
      exact ⟨fun h _ => by exact_mod_cast h, fun h => by exact_mod_cast h rfl⟩
    · rw [if_neg habsent]
      exact iff_of_true hvalue fun h => absurd (by exact_mod_cast hvalue.trans h) habsent
  · refine iff_of_false (fun heq => hfits ?_) fun h => hfits ⟨h.1, h.2.1⟩
    rw [← heq]
    exact ⟨Int.natCast_nonneg _, by exact_mod_cast hlt⟩

theorem Number.get_lt (f : Number) (cfg : RuntimeCfg) : f.get cfg < 2 ^ f.kind.bits := by
  cases f
  case baudRate => exact UInt32.toNat_lt _
  all_goals first | exact UInt8.toNat_lt _ | exact UInt16.toNat_lt _

theorem mergeNetMode_off (old : UInt8) : mergeNetMode old 1 &&& 1 = 0 := by
  obtain ⟨⟨b⟩⟩ := old
  revert b
  decide +kernel

theorem mergeNetMode_on (old : UInt8) : mergeNetMode old 2 &&& 1 ≠ 0 := by
  obtain ⟨⟨b⟩⟩ := old
  revert b
  decide +kernel

section Given

variable {d : Doc} {cfg : RuntimeCfg}

theorem Number.number_of_given {f : Number} {z : Int} (h : f.given d.own = some z) :
    d.number f.key.text = some z :=
  Doc.number_of_own (Option.filter_eq_some_iff.mp h).1

theorem Doc.stringIn_of_own {key : Key} {size : Nat} {s : List UInt8}
    (h : d.own.stringIn key size = some s) : d.stringIn key size = some s := by
  obtain ⟨full, hfull, hs⟩ := Option.map_eq_some_iff.mp h
  exact Option.map_eq_some_iff.mpr ⟨full, Doc.string_of_own hfull, hs⟩

theorem Enumeration.given_of_own {f : Enumeration} {type : UInt16}
    (h : f.given d.own = some type) : f.given d = some type := by
  obtain ⟨s, hs, htype⟩ := Option.bind_eq_some_iff.mp h
  exact Option.bind_eq_some_iff.mpr ⟨s, Doc.stringIn_of_own hs, htype⟩

theorem Address.ipAddress_of_given {f : Address} {ip : UInt32}
    (h : f.given cfg d.own = some ip) : (d.ipAddress f.key).1 = ip := by
  obtain ⟨s, hs, hip⟩ := Option.bind_eq_some_iff.mp (Option.filter_eq_some_iff.mp h).1
  unfold Doc.ipAddress
  rw [Doc.stringIn_of_own hs]
  exact congrArg (Option.getD · ipaddrNone) hip

theorem Doc.macAddress_of_own {mac : MacAddress} (h : d.own.macAddress .mac .zero = (mac, true)) :
    d.macAddress .mac .zero = (mac, true) := by
  unfold Doc.macAddress at h ⊢
  cases hs : d.own.stringIn .mac 64 with
  | none =>
      rw [hs] at h
      cases h
  | some s =>
      rw [hs] at h
      rw [Doc.stringIn_of_own hs]
      exact h

end Given

section Merge

variable (d : Doc) (cfg : RuntimeCfg)

theorem toNat_dipAfter : (checkBoolField cfg.isDipOn d.scratch.isDipOn true).1.toNat =
    d.dipAfter cfg := flag_store _ _

theorem dipTurnedOff_iff :
    DipTurnedOff d.scratch cfg.isDipOn ↔ cfg.dipOn = true ∧ d.dipAfter cfg = 0 := by
  have hon : cfg.dipOn = true ↔ cfg.isDipOn ≠ 0 := decide_eq_true_iff
  have hzero : ∀ b : UInt8, b.toNat = 0 ↔ b = 0 := fun b => UInt8.toNat_inj (b := 0)
  rw [DipTurnedOff, checkBoolField_changed_iff, hon, ← toNat_dipAfter, hzero]
  constructor
  · rintro ⟨hne, hoff⟩
    rw [hoff] at hne
    exact ⟨Ne.symm hne, hoff⟩
  · rintro ⟨hne, hoff⟩
    rw [hoff]
    exact ⟨Ne.symm hne, rfl⟩

/-- The destination address after the merge. -/
theorem dest_ip_eq : (compareAll d.scratch cfg).cfg.dest.ip =
    if NewMulticast d.scratch cfg.ipMulticast ∧ d.dipAfter cfg = 0 then (d.ipAddress .mcastIp).1
    else d.destBefore cfg := by
  have hzero : (checkBoolField cfg.isDipOn d.scratch.isDipOn true).1 = 0 ↔ d.dipAfter cfg = 0 := by
    rw [← toNat_dipAfter]
    exact (UInt8.toNat_inj (b := 0)).symm
  rw [compareAll_dest]
  simp only [hzero, dipTurnedOff_iff]
  rfl

theorem given_number_iff :
    (∀ (f : Number) (z : Int), f.given d.own = some z →
      (f.get (compareAll d.scratch cfg).cfg : Int) = z) ↔
    ∀ (f : Number) (z : Int), f.given d.own = some z →
      0 ≤ z ∧ z < 2 ^ f.kind.bits ∧ (z = f.kind.absent → f.get cfg = f.kind.absent) := by
  refine forall_congr' fun f => forall_congr' fun z => forall_congr' fun hz => ?_
  rw [f.get_compareAll, Number.number_of_given hz]
  exact f.kind.store_eq_given_iff (f.get_lt cfg) z

theorem given_address_iff :
    (∀ (f : Address) (ip : UInt32), f.given cfg d.own = some ip →
      f.get (compareAll d.scratch cfg).cfg = ip) ↔
    ∀ f : Address, f.given cfg d.own = some ipaddrNone → f.get cfg = ipaddrNone := by
  constructor
  · intro h f hnone
    have := h f ipaddrNone hnone
    rwa [f.get_compareAll, Address.ipAddress_of_given hnone, if_pos rfl] at this
  · intro h f ip hip
    rw [f.get_compareAll, Address.ipAddress_of_given hip]
    by_cases hnone : ip = ipaddrNone
    · rw [if_pos hnone, hnone]
      exact h f (by rw [hip, hnone])
    · rw [if_neg hnone]

/-- The destination is the address that is given, unless this is no new one. -/
theorem given_dest_iff (ip : UInt32) (hip : Address.multicast.given cfg d.own = some ip) :
    ((compareAll d.scratch cfg).cfg.dipOn = false →
      (compareAll d.scratch cfg).cfg.dest.ip = ip) ↔
    (d.dipAfter cfg = 0 → (ip ≠ ipaddrNone ∧ ip ≠ cfg.ipMulticast) ∨ d.destBefore cfg = ip) := by
  have hoff : (compareAll d.scratch cfg).cfg.dipOn = false ↔ d.dipAfter cfg = 0 := by
    rw [← toNat_dipAfter, compareAll_cfg]
    unfold RuntimeCfg.dipOn
    rw [decide_eq_false_iff_not, not_not]
    exact (UInt8.toNat_inj (b := 0)).symm
  rw [hoff]
  refine forall_congr' fun hdip => ?_
  have hgiven := Address.ipAddress_of_given hip
  rw [Address.key] at hgiven
  have hnew : NewMulticast d.scratch cfg.ipMulticast ↔ ip ≠ ipaddrNone ∧ ip ≠ cfg.ipMulticast := by
    rw [← hgiven]
    exact Iff.rfl
  rw [dest_ip_eq, hgiven]
  by_cases h : ip ≠ ipaddrNone ∧ ip ≠ cfg.ipMulticast
  · rw [if_pos ⟨hnew.mpr h, hdip⟩]
    exact iff_of_true rfl (Or.inl h)
  · rw [if_neg fun hn => h (hnew.mp hn.1)]
    exact ⟨Or.inr, fun hd => hd.resolve_left h⟩

theorem given_netMode_iff :
    (∀ z : Int, d.own.number Key.dhcp.text = some z →
      ((compareAll d.scratch cfg).cfg.dhcpIsEnable.toNat : Int) = z) ↔
    ∀ z : Int, d.own.number Key.dhcp.text = some z → z = 0 ∨ z = 1 := by
  refine forall_congr' fun z => forall_congr' fun hz => ?_
  have hmerge : (compareAll d.scratch cfg).cfg.netMode =
      mergeNetMode cfg.netMode (flagField (some (fitU32 z))) := by
    rw [compareAll_cfg]
    have hscratch : d.scratch.netMode = flagField (some (fitU32 z)) := by
      unfold Doc.scratch Doc.unsignedInteger
      rw [Doc.number_of_own hz]
      rfl
    rw [hscratch]
  constructor
  · intro h
    rw [← h]
    cases (compareAll d.scratch cfg).cfg.dhcpIsEnable
    · exact Or.inl rfl
    · exact Or.inr rfl
  · unfold RuntimeCfg.dhcpIsEnable
    rw [hmerge]
    have hoff : flagField (some (fitU32 0)) = 1 := by decide
    have hon : flagField (some (fitU32 1)) = 2 := by decide
    rintro (rfl | rfl)
    · rw [hoff, decide_eq_false (not_not.mpr (mergeNetMode_off cfg.netMode))]
      rfl
    · rw [hon, decide_eq_true (mergeNetMode_on cfg.netMode)]
      rfl

theorem given_mac_iff :
    (∀ mac : MacAddress, d.own.macAddress .mac .zero = (mac, true) →
      (compareAll d.scratch cfg).cfg.local.mac = mac) ↔
    ∀ mac : MacAddress, d.own.macAddress .mac .zero = (mac, true) → mac.isNull = true →
      cfg.local.mac = mac := by
  refine forall_congr' fun mac => forall_congr' fun hmac => ?_
  have hscratch : d.scratch.local.mac = mac := congrArg Prod.fst (Doc.macAddress_of_own hmac)
  rw [compareAll_cfg]
  dsimp only
  by_cases h : NewMac d.scratch cfg.local.mac
  · rw [if_pos h, hscratch]
    rw [NewMac, hscratch] at h
    exact iff_of_true rfl fun hnull => absurd hnull h.1
  · rw [if_neg h]
    rw [NewMac, hscratch] at h
    refine ⟨fun heq _ => heq, fun himp => ?_⟩
    by_contra hne
    exact h ⟨fun hnull => hne (himp hnull), hne⟩

theorem given_name_iff :
    (∀ s : List UInt8, d.own.string Key.cName.text = some s →
      (compareAll d.scratch cfg).cfg.name.val = s) ↔
    ∀ s : List UInt8, d.own.string Key.cName.text = some s →
      s = cfg.name.val ∨
        (s ≠ [] ∧ s.length ≤ 31 ∧ strcasecmpEq cfg.name.val s = false) := by
  refine forall_congr' fun s => forall_congr' fun hs => ?_
  have hshort : d.scratch.name.val = s.take 31 := by
    have hin : d.stringIn .cName 32 = some (s.take 31) :=
      Option.map_eq_some_iff.mpr ⟨s, Doc.string_of_own hs, rfl⟩
    obtain ⟨hnul, hfits⟩ := Doc.stringIn_spec hin
    unfold Doc.scratch
    rw [hin]
    exact CString.copy_val hnul hfits
  rw [compareAll_cfg]
  dsimp only
  unfold mergeName
  rw [hshort]
  by_cases h : s.take 31 ≠ [] ∧ ¬ strcasecmpEq cfg.name.val (s.take 31)
  · have hcopy : (CString.copy 31 (s.take 31)).val = s.take 31 := by
      rw [← hshort]
      exact CString.copy_val d.scratch.name.nul_free d.scratch.name.fits
    rw [if_pos h, hcopy]
    constructor
    · intro htake
      rw [htake] at h
      have hlen : s.length ≤ 31 := by
        rw [← htake]
        exact List.length_take_le 31 s
      exact Or.inr ⟨h.1, hlen, Bool.eq_false_iff.mpr h.2⟩
    · rintro (rfl | ⟨-, hlen, -⟩)
      · exact List.take_of_length_le cfg.name.fits
      · exact List.take_of_length_le hlen
  · rw [if_neg h]
    constructor
    · exact fun heq => Or.inl heq.symm
    · rintro (heq | ⟨hne, hlen, hcase⟩)
      · exact heq.symm
      · rw [List.take_of_length_le hlen] at h
        exact absurd ⟨hne, Bool.eq_false_iff.mp hcase⟩ h

theorem given_isConnect_iff :
    (∀ z : Int, d.own.number Key.isConnect.text = some z →
      ((compareAll d.scratch cfg).cfg.runtime.isConnect.toNat : Int) = z) ↔
    ∀ z : Int, d.own.number Key.isConnect.text = some z → z = cfg.runtime.isConnect.toNat := by
  have hkept : (compareAll d.scratch cfg).cfg.runtime.isConnect = cfg.runtime.isConnect := by
    rw [compareAll_cfg, compareMediaCfg_cfg]
  rw [hkept]
  exact forall_congr' fun z => forall_congr' fun _ => eq_comm

end Merge

/-- The values that are given are in their fields, if and only if they are
    storable. -/
theorem stored_compareAll_iff (d : Doc) (cfg : RuntimeCfg) :
    Stored d.own cfg (compareAll d.scratch cfg).cfg ↔ Storable d cfg := by
  constructor
  · intro h
    exact {
      number := (given_number_iff d cfg).mp h.number
      address := (given_address_iff d cfg).mp h.address
      dest := fun ip hip => (given_dest_iff d cfg ip hip).mp (h.dest ip hip)
      netMode := (given_netMode_iff d cfg).mp h.netMode
      mac := (given_mac_iff d cfg).mp h.mac
      name := (given_name_iff d cfg).mp h.name
      isConnect := (given_isConnect_iff d cfg).mp h.isConnect }
  · intro h
    exact {
      number := (given_number_iff d cfg).mpr h.number
      -- the names that are known have types of their own
      enumeration := fun f type htype => by
        rw [f.get_compareAll, Enumeration.given_of_own htype]
        rfl
      address := (given_address_iff d cfg).mpr h.address
      dest := fun ip hip => (given_dest_iff d cfg ip hip).mpr (h.dest ip hip)
      netMode := (given_netMode_iff d cfg).mpr h.netMode
      mac := (given_mac_iff d cfg).mpr h.mac
      name := (given_name_iff d cfg).mpr h.name
      isConnect := (given_isConnect_iff d cfg).mpr h.isConnect }

/-- A command stores what it gives, if and only if its values are storable. -/
theorem storesGiven_iff (dev : Device) (datagram : List UInt8) (ip : UInt32) (port : UInt16) :
    StoresGiven dev datagram ip port ↔
      ((parseDatagram dev datagram).1 = true →
        commandOf (parseDatagram dev datagram).2.cmd.val = some .setParams →
          Acts dev.cfg (parseDatagram dev datagram).2 →
            Storable (parseDatagram dev datagram).2.doc dev.cfg) := by
  refine forall_congr' fun hparsed => forall_congr' fun hcmd => forall_congr' fun hacts => ?_
  obtain ⟨_, -, -, hcfg, -⟩ := extUdpCmdThread_of_parsed ip port hparsed
  rw [hcfg, (extJsonHandle_setParams hcmd hacts).2.2.1]
  exact stored_compareAll_iff _ _

/-- A `set_param` command with the port 0. -/
def portZero : List UInt8 := extIpCmdResponseTailCalculate
  (ascii "\x7b\"targ\":\"00:04:25:1c:10:02\",\"cmd\":\"set_param\",\"login-ack\":\"admin\"," ++
    ascii "\"pwd-msg\":\"admin\",\"data\":[\x7b\"vidPort\":0\x7d]") true

/-- The port 0 stands for no port, and the old one stays. -/
theorem not_storesGiven_portZero :
    ¬ StoresGiven (Device.factory 1) portZero 0xC0A8A80A 5000 := by
  have hread : (parseDatagram (Device.factory 1) portZero).1 = true ∧
      commandOf (parseDatagram (Device.factory 1) portZero).2.cmd.val = some .setParams ∧
      Number.vport.given (parseDatagram (Device.factory 1) portZero).2.doc.own = some 0 := by
    unfold portZero
    repeat rw [ascii_ofList]
    decide +kernel
  have haccepted : (parseDatagram (Device.factory 1) portZero).2.doc.isReply = false ∧
      (parseDatagram (Device.factory 1) portZero).2.doc.authenticated
        (Device.factory 1).cfg = true ∧
      (parseDatagram (Device.factory 1) portZero).2.target = (Device.factory 1).cfg.local.mac ∧
      (parseDatagram (Device.factory 1) portZero).2.doc.acceptable
        (Device.factory 1).cfg = true := by
    unfold portZero
    repeat rw [ascii_ofList]
    decide +kernel
  have hold : Number.vport.get
      (extUdpCmdThread (Device.factory 1) portZero 0xC0A8A80A 5000).1.cfg = 48000 := by
    unfold portZero
    repeat rw [ascii_ofList]
    decide +kernel
  intro h
  rcases hread with ⟨hparsed, hcmd, hgiven⟩
  have hstored := h hparsed hcmd (by
    unfold Acts
    rw [hcmd]
    exact haccepted)
  have hport := hstored.number .vport 0 hgiven
  rw [hold] at hport
  exact absurd hport (by decide)

end Cmd

end RtosLwip
