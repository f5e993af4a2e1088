import RtosLwip.Cmd.Auth
import RtosLwip.Cmd.Fields

/-!
# What a Message Leaves as It Was

The fields of the configuration that a `get_param` or a `set_param` command does
not name. The message is taken by itself here: what an earlier message has left
behind it in the token array is not part of it, and neither is the part of a MAC
address that was read before the text turned out to be none.

## Main definitions

* `Number.given`, `Address.given`: The values that a message gives.
* `Kept`: Each field that is not given is as before.
* `UngivenKept`: What a datagram should leave as it was.
* `GetHarmless`, `SetHarmless`: What is taken from elsewhere changes nothing.

## Theorems

* `kept_compareAll_iff`: The fields after a merge.
* `kept_getParams_iff`: The fields behind a `get_param` command.
* `ungivenKept_iff`: When a datagram leaves what it does not name.
-/

namespace RtosLwip

namespace Cmd

/-- The number that a message gives, if it passes its check. -/
def Number.given (f : Number) (d : Doc) : Option Int := (d.number f.key.text).filter f.valid

/-- The address that a message gives, if it passes its check. -/
def Address.given (f : Address) (run : RuntimeCfg) (d : Doc) : Option UInt32 :=
  ((d.stringIn f.key 64).bind ip4addrAton).filter fun ip =>
    f ≠ .multicast || validMcastIp run (ip, true)

/-- The fields that no parameter is for. -/
def RuntimeCfg.fixed (cfg : RuntimeCfg) :=
  (cfg.isTx, cfg.user, cfg.password, cfg.version, cfg.local.vport, cfg.local.aport,
    cfg.local.dport, cfg.local.sport, cfg.runtime.isConnect, cfg.netifIp)

/-- Each field whose parameter is not given by the message, or rejected, is as
    before. The destination goes with the DIP switch and the multicast address. -/
structure Kept (m : Doc) (run new : RuntimeCfg) : Prop where
  number : ∀ f : Number, f.given m = none → f.get new = f.get run
  enumeration : ∀ f : Enumeration, f.given m = none → f.get new = f.get run
  address : ∀ f : Address, f.given run m = none → f.get new = f.get run
  netMode : m.number Key.dhcp.text = none → new.netMode = run.netMode
  mac : (m.macAddress .mac .zero).2 = false →
    new.local.mac = run.local.mac ∧ new.isMacConfiged = run.isMacConfiged
  name : m.stringIn .cName 32 = none → new.name = run.name
  dest : Number.isDipOn.given m = none → Address.multicast.given run m = none →
    new.dest.ip = run.dest.ip ∧ new.dest.mac = run.dest.mac
  ipSvr811 : (m.stringIn .svr811Ip 64).bind ip4addrAton = none → new.ipSvr811 = run.ipSvr811
  portSvr811 : m.number Key.svr811Port.text = none → new.portSvr811 = run.portSvr811
  fixed : new.fixed = run.fixed

theorem Kept.refl (m : Doc) (run : RuntimeCfg) : Kept m run run :=
  ⟨fun _ _ => rfl, fun _ _ => rfl, fun _ _ => rfl, fun _ => rfl, fun _ => ⟨rfl, rfl⟩, fun _ => rfl,
    fun _ _ => ⟨rfl, rfl⟩, fun _ => rfl, fun _ => rfl, rfl⟩

/-- A primitive follows the key. -/
def Doc.hasPrimitive (key : Key) (d : Doc) : Bool :=
  (d.extJsonFindKeyToken key.text).any fun tok => tok.type = .primitive

/-- The fields that are not given by the message are as before, and if the reply
    reports an error, so is the whole configuration. -/
def UngivenKept (dev : Device) (datagram : List UInt8) (ip : UInt32) (port : UInt16) : Prop :=
  let p := (parseDatagram dev datagram).2
  let new := (extUdpCmdThread dev datagram ip port).1
  (parseDatagram dev datagram).1 = true → p.doc.authenticated dev.cfg = true →
    commandOf p.cmd.val = some .getParams ∨ commandOf p.cmd.val = some .setParams →
      Kept p.doc.own dev.cfg new.cfg ∧
        (new.parser.out ≠ [] → new.parser.status ≠ .ok → new.cfg = dev.cfg)

/-- Where the message itself gives no value, the one that is found in the token
    array, or the part that was read, stands for no value or is the old one. -/
structure SetHarmless (d : Doc) (cfg : RuntimeCfg) : Prop where
  number : ∀ f : Number, f.given d.own = none → ∀ z, d.number f.key.text = some z →
    f.kind.value z = f.kind.absent ∨ f.kind.value z = f.get cfg
  enumeration : ∀ f : Enumeration, f.given d.own = none → ∀ type, f.given d = some type →
    type.toNat = f.get cfg
  address : ∀ f : Address, f.given cfg d.own = none →
    (d.ipAddress f.key).1 = ipaddrNone ∨ (d.ipAddress f.key).1 = f.get cfg
  netMode : d.own.number Key.dhcp.text = none → ∀ z, d.number Key.dhcp.text = some z →
    Kind.flag.value z = Kind.flag.absent ∨ Kind.flag.value z = cfg.netMode.toNat ∨
      (Kind.flag.value z ≠ 0 ↔ cfg.dhcpIsEnable = true)
  mac : (d.own.macAddress .mac .zero).2 = false →
    (d.macAddress .mac .zero).1.isNull = true ∨ (d.macAddress .mac .zero).1 = cfg.local.mac
  name : d.own.stringIn .cName 32 = none → ∀ s, d.stringIn .cName 32 = some s →
    s = [] ∨ strcasecmpEq cfg.name.val s = true

section Merge

variable (d : Doc) (cfg : RuntimeCfg)

theorem number_eq_iff (f : Number) : f.get (compareAll d.scratch cfg).cfg = f.get cfg ↔
    ∀ z, d.number f.key.text = some z →
      f.kind.value z = f.kind.absent ∨ f.kind.value z = f.get cfg := by
  rw [f.get_compareAll, Kind.store_eq_iff]

theorem enumeration_eq_iff (f : Enumeration) :
    f.get (compareAll d.scratch cfg).cfg = f.get cfg ↔
      ∀ type, f.given d = some type → type.toNat = f.get cfg := by
  rw [f.get_compareAll]
  cases f.given d with
  | none => exact iff_of_true rfl nofun
  | some type => simp

theorem address_eq_iff (f : Address) : f.get (compareAll d.scratch cfg).cfg = f.get cfg ↔
    (d.ipAddress f.key).1 = ipaddrNone ∨ (d.ipAddress f.key).1 = f.get cfg := by
  rw [f.get_compareAll]
  by_cases h : (d.ipAddress f.key).1 = ipaddrNone
  · rw [if_pos h]
    exact iff_of_true rfl (Or.inl h)
  · rw [if_neg h]
    exact ⟨Or.inr, fun hv => hv.resolve_left h⟩

theorem netMode_eq_iff : (compareAll d.scratch cfg).cfg.netMode = cfg.netMode ↔
    ∀ z, d.number Key.dhcp.text = some z →
      Kind.flag.value z = Kind.flag.absent ∨ Kind.flag.value z = cfg.netMode.toNat ∨
        (Kind.flag.value z ≠ 0 ↔ cfg.dhcpIsEnable = true) := by
  have hbit : cfg.dhcpIsEnable = true ↔ cfg.netMode &&& 1 ≠ 0 := decide_eq_true_iff
  rw [compareAll_cfg]
  simp only [hbit]
  exact mergeNetMode_eq_iff _ _

theorem mac_eq_iff : ((compareAll d.scratch cfg).cfg.local.mac = cfg.local.mac ∧
    (compareAll d.scratch cfg).cfg.isMacConfiged = cfg.isMacConfiged) ↔
      (d.macAddress .mac .zero).1.isNull = true ∨
        (d.macAddress .mac .zero).1 = cfg.local.mac := by
  have hmac : d.scratch.local.mac = (d.macAddress .mac .zero).1 := rfl
  rw [compareAll_cfg, ← hmac]
  dsimp only
  by_cases h : NewMac d.scratch cfg.local.mac
  · simp only [if_pos h]
    refine iff_of_false (fun hn => h.2 hn.1.symm) ?_
    rintro (hnull | hold)
    · exact h.1 hnull
    · exact h.2 hold.symm
  · simp only [if_neg h]
    refine iff_of_true ⟨trivial, trivial⟩ ?_
    by_contra hn
    rw [not_or] at hn
    exact h ⟨hn.1, Ne.symm hn.2⟩

theorem name_eq_iff : (compareAll d.scratch cfg).cfg.name = cfg.name ↔
    ∀ s, d.stringIn .cName 32 = some s → s = [] ∨ strcasecmpEq cfg.name.val s = true := by
  have hname : d.scratch.name = .copy 31 ((d.stringIn .cName 32).getD []) := rfl
  rw [compareAll_cfg]
  refine (mergeName_eq_iff _ _).trans ?_
  rw [hname]
  cases hs : d.stringIn .cName 32 with
  | none => exact iff_of_true (Or.inl rfl) nofun
  | some s =>
      obtain ⟨hnul, hfits⟩ := Doc.stringIn_spec hs
      simp only [Option.getD_some, CString.copy_val hnul hfits, Option.some.injEq, forall_eq']

end Merge

/-- The fields that are not given are as before, if and only if nothing that is
    taken for their values changes them. -/
theorem kept_compareAll_iff (d : Doc) (cfg : RuntimeCfg) :
    Kept d.own cfg (compareAll d.scratch cfg).cfg ↔ SetHarmless d cfg := by
  constructor
  · intro h
    exact {
      number := fun f hf => (number_eq_iff d cfg f).mp (h.number f hf)
      enumeration := fun f hf => (enumeration_eq_iff d cfg f).mp (h.enumeration f hf)
      address := fun f hf => (address_eq_iff d cfg f).mp (h.address f hf)
      netMode := fun hf => (netMode_eq_iff d cfg).mp (h.netMode hf)
      mac := fun hf => (mac_eq_iff d cfg).mp (h.mac hf)
      name := fun hf => (name_eq_iff d cfg).mp (h.name hf) }
  · intro h
    exact {
      number := fun f hf => (number_eq_iff d cfg f).mpr (h.number f hf)
      enumeration := fun f hf => (enumeration_eq_iff d cfg f).mpr (h.enumeration f hf)
      address := fun f hf => (address_eq_iff d cfg f).mpr (h.address f hf)
      netMode := fun hf => (netMode_eq_iff d cfg).mpr (h.netMode hf)
      mac := fun hf => (mac_eq_iff d cfg).mpr (h.mac hf)
      name := fun hf => (name_eq_iff d cfg).mpr (h.name hf)
      -- the destination has no value of its own
      dest := fun hdip hip => compareAll_dest_eq
        (UInt8.toNat_inj.mp ((number_eq_iff d cfg .isDipOn).mpr (h.number .isDipOn hdip)))
        ((address_eq_iff d cfg .multicast).mpr (h.address .multicast hip))
      ipSvr811 := fun _ => by rw [compareAll_cfg]
      portSvr811 := fun _ => by rw [compareAll_cfg]
      fixed := by
        rw [compareAll_cfg, compareMediaCfg_cfg]
        rfl }

section Status

variable {key : Key} {p : Parser}

/-- Reading a string that is there leaves the parser as it is. -/
theorem extJsonParseString_of_some {size : Nat} {s : List UInt8}
    (h : p.doc.stringIn key size = some s) : extJsonParseString key size p = (some s, p) := by
  unfold extJsonParseString
  unfold Doc.stringIn Doc.string at h
  cases hfind : p.doc.extJsonFindKeyToken key.text with
  | none =>
      rw [hfind] at h
      exact absurd h nofun
  | some tok =>
      rw [hfind] at h
      by_cases hstring : tok.type = .string
      · simp only [if_pos hstring, Option.map_some, Option.some.injEq] at h ⊢
        rw [h]
      · simp only [if_neg hstring, Option.map_none] at h
        exact absurd h nofun

theorem extJsonParseString_eq_some {size : Nat} {s : List UInt8} {q : Parser}
    (h : extJsonParseString key size p = (some s, q)) : q = p := by
  obtain ⟨r, hr, -⟩ := delivers_string key size p
  have hsome : p.doc.stringIn key size = some s := by
    rw [hr] at h
    exact congrArg Prod.fst h
  rw [extJsonParseString_of_some hsome] at h
  exact (congrArg Prod.snd h).symm

theorem extJsonParseString_of_none {size : Nat} (h : p.doc.stringIn key size = none) :
    (extJsonParseString key size p).2.status = .parseParamError := by
  unfold extJsonParseString
  unfold Doc.stringIn Doc.string at h
  cases hfind : p.doc.extJsonFindKeyToken key.text with
  | none => rfl
  | some tok =>
      rw [hfind] at h
      by_cases hstring : tok.type = .string
      · simp only [if_pos hstring, Option.map_some] at h
        exact absurd h nofun
      · simp only [if_neg hstring]
        rfl

theorem extJsonParseIpAddress_status (key : Key) (p : Parser) :
    (extJsonParseIpAddress key p).2.status =
      if (p.doc.stringIn key 64).isSome then p.status else .parseParamError := by
  unfold extJsonParseIpAddress
  cases h : p.doc.stringIn key 64 with
  | none =>
      obtain ⟨q, hq, -⟩ := delivers_string key 64 p
      have hstatus := extJsonParseString_of_none h
      rw [hq, h] at hstatus ⊢
      exact hstatus
  | some s =>
      rw [extJsonParseString_of_some h]
      rfl

theorem extJsonParseUnsignedShort_status (key : Key) (p : Parser) :
    (extJsonParseUnsignedShort key p).2.status =
      if p.doc.hasPrimitive key then p.status else .parseParamError := by
  unfold extJsonParseUnsignedShort primitiveValue Doc.hasPrimitive
  cases p.doc.extJsonFindKeyToken key.text with
  | none => rfl
  | some tok => by_cases h : tok.type = .primitive <;> simp [h, Parser.paramError]

/-- The check of a message that is authenticated leaves no trace. -/
theorem extJsonUserValidate_of_authenticated {cfg : RuntimeCfg}
    (h : p.doc.authenticated cfg = true) : extJsonUserValidate cfg p = (true, p) := by
  unfold Doc.authenticated at h
  rw [Bool.and_eq_true, Option.any_eq_true, Option.any_eq_true] at h
  obtain ⟨⟨name, hname, huser⟩, pwd, hpwd, hpassword⟩ := h
  unfold extJsonUserValidate
  rw [extJsonParseString_of_some hname]
  simp only [huser, not_true_eq_false, if_false]
  rw [extJsonParseString_of_some hpwd]
  simp only [hpassword, not_true_eq_false, if_false]

/-- The status that `get_param` leaves, when it is carried out. -/
theorem extCmdGetParams_status {cfg : RuntimeCfg} (hlogin : p.doc.authenticated cfg = true)
    (htarget : isAddressed cfg p = true) : (extCmdGetParams cfg p).parser.status =
      if (p.doc.stringIn .svr811Ip 64).isSome ∧ p.doc.hasPrimitive .svr811Port then p.status
      else .parseParamError := by
  unfold extCmdGetParams
  rw [extJsonUserValidate_of_authenticated hlogin]
  simp only [htarget, not_true_eq_false, if_false]
  obtain ⟨q, hq, hin⟩ := delivers_ipAddress .svr811Ip p
  have hipStatus := extJsonParseIpAddress_status .svr811Ip p
  have hportStatus := extJsonParseUnsignedShort_status .svr811Port q
  rw [hq] at hipStatus ⊢
  rw [Parser.doc_eq hin] at hportStatus
  have hout : ∀ c r, (extJsonResponsePrintConfig c r).status = r.status := fun _ _ => rfl
  dsimp only at hipStatus ⊢
  rw [hout, hportStatus, hipStatus]
  by_cases hport : p.doc.hasPrimitive .svr811Port = true
  · simp only [hport, if_true, and_true]
  · simp only [hport, Bool.false_eq_true, if_false, and_false]

end Status

/-- The function does not succeed without the status of success. -/
def EndsOk {α : Type} (m : ParseM α) : Prop := ∀ p a q, m p = .ok (a, q) → q.status = .ok

theorem EndsOk.bind {α β : Type} {m : ParseM α} {k : α → ParseM β} (h : ∀ a, EndsOk (k a)) :
    EndsOk (m >>= k) := by
  intro p b q hq
  simp only [Bind.bind, StateT.bind] at hq
  cases hm : m p with
  | error e =>
      rw [hm] at hq
      cases hq
  | ok r =>
      rw [hm] at hq
      exact h r.1 r.2 b q hq

/-- The count of the values is checked at the end, and the status set. -/
theorem EndsOk.checkCount {α : Type} (found : Bool) (a : α) :
    EndsOk (checkCount found >>= fun _ => pure a) := by
  intro p b q hq
  cases found with
  | false => cases hq
  | true =>
      cases hq
      rfl

theorem endsOk_extJsonRequestParse (run : RuntimeCfg) : EndsOk (extJsonRequestParse run) := by
  unfold extJsonRequestParse
  iterate 37 refine EndsOk.bind fun _ => ?_
  exact EndsOk.checkCount _ _

/-- What `get_param` writes without having read it is what was there. -/
structure GetHarmless (d : Doc) (cfg : RuntimeCfg) : Prop where
  ipSvr811 : (d.own.stringIn .svr811Ip 64).bind ip4addrAton = none →
    (d.ipAddress .svr811Ip).1 = cfg.ipSvr811
  portSvr811 : d.own.number Key.svr811Port.text = none →
    ∀ z, d.number Key.svr811Port.text = some z → Kind.short.value z = cfg.portSvr811.toNat
  error : ¬ ((d.stringIn .svr811Ip 64).isSome ∧ d.hasPrimitive .svr811Port) →
    (d.ipAddress .svr811Ip).1 = cfg.ipSvr811 ∧
      ∀ z, d.number Key.svr811Port.text = some z → Kind.short.value z = cfg.portSvr811.toNat

section GetParams

variable {cfg : RuntimeCfg} {p : Parser}

theorem portSvr811_eq_iff (d : Doc) (port : UInt16) :
    (d.unsignedShort .svr811Port).getD port = port ↔
      ∀ z, d.number Key.svr811Port.text = some z → Kind.short.value z = port.toNat := by
  unfold Doc.unsignedShort
  cases d.number Key.svr811Port.text with
  | none => exact iff_of_true rfl nofun
  | some z =>
      have hvalue : Kind.short.value z = (fitU32 z).toUInt16.toNat :=
        (UInt32.toNat_toUInt16 _).symm
      simp only [Option.map_some, Option.getD_some, Option.some.injEq, forall_eq', hvalue,
        UInt16.toNat_inj]

/-- The fields behind a `get_param` command that is answered. -/
theorem kept_getParams_iff (hlogin : p.doc.authenticated cfg = true)
    (htarget : isAddressed cfg p = true) (hok : p.status = .ok) :
    (Kept p.doc.own cfg (extCmdGetParams cfg p).cfg ∧
      ((extCmdGetParams cfg p).parser.status ≠ .ok → (extCmdGetParams cfg p).cfg = cfg)) ↔
    GetHarmless p.doc cfg := by
  have hstatus := extCmdGetParams_status hlogin htarget
  rcases extCmdGetParams_cases cfg p with ⟨hno, -⟩ | ⟨-, q, hq⟩
  · exact absurd ⟨hlogin, htarget⟩ hno
  rw [hok] at hstatus
  rw [hq] at hstatus ⊢
  dsimp only at hstatus ⊢
  rw [hstatus]
  have hport := portSvr811_eq_iff p.doc cfg.portSvr811
  have hsame : { cfg with
      ipSvr811 := (p.doc.ipAddress .svr811Ip).1
      portSvr811 := (p.doc.unsignedShort .svr811Port).getD cfg.portSvr811 } = cfg ↔
      (p.doc.ipAddress .svr811Ip).1 = cfg.ipSvr811 ∧
        (p.doc.unsignedShort .svr811Port).getD cfg.portSvr811 = cfg.portSvr811 := by
    constructor
    · intro h
      exact ⟨congrArg RuntimeCfg.ipSvr811 h, congrArg RuntimeCfg.portSvr811 h⟩
    · rintro ⟨hip, hport⟩
      rw [hip, hport]
  rw [hsame]
  constructor
  · rintro ⟨hkept, herr⟩
    refine ⟨hkept.ipSvr811, fun h => hport.mp (hkept.portSvr811 h), fun h => ?_⟩
    obtain ⟨hip, hp⟩ := herr (by rw [if_neg h]; exact nofun)
    exact ⟨hip, hport.mp hp⟩
  · intro h
    refine ⟨?_, fun herr => ?_⟩
    · exact ⟨fun f _ => by cases f <;> rfl, fun f _ => by cases f <;> rfl,
        fun f _ => by cases f <;> rfl, fun _ => rfl, fun _ => ⟨rfl, rfl⟩, fun _ => rfl,
        fun _ _ => ⟨rfl, rfl⟩, h.ipSvr811, fun hn => hport.mpr (h.portSvr811 hn), rfl⟩
    · obtain ⟨hip, hp⟩ := h.error fun hyes => herr (by rw [if_pos hyes])
      exact ⟨hip, hport.mpr hp⟩

/-- A `get_param` command that is answered. -/
theorem extCmdGetParams_ret (hlogin : p.doc.authenticated cfg = true)
    (htarget : isAddressed cfg p = true) :
    (extCmdGetParams cfg p).ret = true ∧ (extCmdGetParams cfg p).parser.out ≠ [] := by
  rcases extCmdGetParams_cases cfg p with ⟨hno, -⟩ | ⟨-, q, hq⟩
  · exact absurd ⟨hlogin, htarget⟩ hno
  · rw [hq]
    exact ⟨rfl, tail_ne_nil _ _⟩

theorem extJsonHandle_getParams (hcmd : commandOf p.cmd.val = some .getParams)
    (hlogin : p.doc.authenticated cfg = true) (htarget : isAddressed cfg p = true) :
    extJsonHandle cfg p = extCmdGetParams cfg p := by
  unfold extJsonHandle
  rw [hcmd]
  exact if_pos (extCmdGetParams_ret hlogin htarget).1

end GetParams

/-- The configuration and the status behind a `set_param` command that is
    carried out. -/
theorem extJsonHandle_setParams {cfg : RuntimeCfg} {p : Parser}
    (hcmd : commandOf p.cmd.val = some .setParams) (hacts : Acts cfg p) :
    (extJsonHandle cfg p).ret = true ∧ (extJsonHandle cfg p).parser.status = .ok ∧
      (extJsonHandle cfg p).cfg = (compareAll p.doc.scratch cfg).cfg ∧
      (extJsonHandle cfg p).effects = (compareAll p.doc.scratch cfg).effects ++
        setupEffects p.doc.scratch (compareAll p.doc.scratch cfg) := by
  unfold Acts at hacts
  rw [hcmd] at hacts
  obtain ⟨hreply, hlogin, htarget, hacc⟩ := hacts
  unfold extJsonHandle
  rw [hcmd]
  obtain ⟨q, hq, hin, -⟩ := extJsonIsResponse_eq p
  obtain ⟨r, hr, hrin⟩ := extIpCmdIsLocal_eq cfg q
  rw [Parser.doc_eq hin, Parser.target_eq hin, hlogin, decide_eq_true htarget] at hr
  have hparse := (extJsonRequestParse_eq cfg r).1
  rw [Parser.doc_eq (hrin.trans hin)] at hparse
  obtain ⟨t, ht, -⟩ := hparse hacc
  have hok := endsOk_extJsonRequestParse cfg r _ _ ht
  have hset : extIpCmdSetupParams cfg p =
      let s := compareAll p.doc.scratch cfg
      ⟨true, s.cfg, extJsonResponsePrintConfig s.cfg t,
        s.effects ++ setupEffects p.doc.scratch s⟩ := by
    unfold extIpCmdSetupParams
    rw [hq, hreply]
    simp only [hr, Bool.and_self, ht]
  dsimp only [Command.handler]
  rw [hset]
  exact ⟨rfl, hok, rfl, rfl⟩

/-- An address that is read leaves no error. -/
theorem extJsonParseMacAddress_status {key : Key} {mac : MacAddress} {p : Parser}
    (h : (extJsonParseMacAddress key mac p).1.2 = true) :
    (extJsonParseMacAddress key mac p).2.status = p.status := by
  unfold extJsonParseMacAddress at h ⊢
  cases hs : p.doc.stringIn key 64 with
  | none =>
      obtain ⟨q, hq, -⟩ := delivers_string key 64 p
      rw [hq, hs] at h
      exact absurd h nofun
  | some s =>
      rw [extJsonParseString_of_some hs]

/-- A text that is accepted leaves no error. -/
theorem extJsonRequestParseCommand_ok (text : List UInt8) (size : Nat) (p : Parser)
    (h : (extJsonRequestParseCommand text size p).1 = true) :
    (extJsonRequestParseCommand text size p).2.status = .ok := by
  unfold extJsonRequestParseCommand at h ⊢
  dsimp only at h ⊢
  cases hparse : (jsmnParse ((text ++ [0]).take size) p.doc.tokens).2 with
  | some e =>
      simp only [hparse] at h
      exact absurd h nofun
  | none =>
      simp only [hparse] at h ⊢
      split at h
      · exact absurd h nofun
      · rename_i hmac
        rw [if_neg hmac]
        have hstatus := extJsonParseMacAddress_status (not_not.mp hmac)
        split at h
        · exact absurd h nofun
        · rename_i s q hcmd
          exact (congrArg Parser.status (extJsonParseString_eq_some hcmd)).trans hstatus

theorem parseDatagram_ok {dev : Device} {datagram : List UInt8}
    (h : (parseDatagram dev datagram).1 = true) :
    (parseDatagram dev datagram).2.status = .ok := by
  unfold parseDatagram parseFrame at h ⊢
  cases hframe : (checkFrame (receive dev datagram).bufRead
      (datagram.take bufLength).length []).1 with
  | tagError tag =>
      simp only [hframe] at h
      exact absurd h nofun
  | crcError received decoded =>
      simp only [hframe] at h
      exact absurd h nofun
  | json len =>
      simp only [hframe] at h ⊢
      exact extJsonRequestParseCommand_ok _ _ _ h

/-- What is taken for the values that a message does not give is harmless. -/
def Harmless (cfg : RuntimeCfg) (p : Parser) : Prop :=
  (commandOf p.cmd.val = some .getParams → isAddressed cfg p = true → GetHarmless p.doc cfg) ∧
    (commandOf p.cmd.val = some .setParams → Acts cfg p → SetHarmless p.doc cfg)

/-- A datagram leaves what it does not name as it was, if and only if nothing
    that is taken for it elsewhere changes it. -/
theorem ungivenKept_iff (dev : Device) (datagram : List UInt8) (ip : UInt32) (port : UInt16) :
    UngivenKept dev datagram ip port ↔
      ((parseDatagram dev datagram).1 = true →
        (parseDatagram dev datagram).2.doc.authenticated dev.cfg = true →
          Harmless dev.cfg (parseDatagram dev datagram).2) := by
  refine forall_congr' fun hparsed => forall_congr' fun hlogin => ?_
  obtain ⟨q, hok, hfail, hcfg, hparser, -⟩ := extUdpCmdThread_of_parsed ip port hparsed
  have hstatus := parseDatagram_ok hparsed
  rw [hcfg, hparser]
  generalize (parseDatagram dev datagram).2 = p at hlogin hok hfail hstatus ⊢
  generalize dev.cfg = cfg at hlogin hok hfail ⊢
  by_cases hacts : Acts cfg p
  · unfold Acts at hacts
    unfold Harmless
    cases hcmd : commandOf p.cmd.val with
    | none => exact absurd hacts (by rw [hcmd]; exact id)
    | some c =>
        cases c with
        | getParams =>
            rw [hcmd] at hacts
            rw [extJsonHandle_getParams hcmd hacts.1 hacts.2] at hok ⊢
            obtain ⟨hret, hout⟩ := extCmdGetParams_ret hacts.1 hacts.2
            rw [hok hret]
            have hkept := kept_getParams_iff hacts.1 hacts.2 hstatus
            constructor
            · intro h
              obtain ⟨hfields, herr⟩ := h (Or.inl rfl)
              exact ⟨fun _ _ => hkept.mp ⟨hfields, herr hout⟩, nofun⟩
            · intro h _
              obtain ⟨hfields, herr⟩ := hkept.mpr (h.1 rfl hacts.2)
              exact ⟨hfields, fun _ => herr⟩
        | setParams =>
            have hacted : Acts cfg p := by
              unfold Acts
              exact hacts
            obtain ⟨hret, hdone, hnew, -⟩ := extJsonHandle_setParams hcmd hacted
            rw [hok hret, hnew]
            have hkept := kept_compareAll_iff p.doc cfg
            constructor
            · intro h
              exact ⟨nofun, fun _ _ => hkept.mp (h (Or.inr rfl)).1⟩
            · intro h _
              exact ⟨hkept.mpr (h.2 rfl hacted), fun _ herr => absurd hdone herr⟩
        | sendRs232 => exact iff_of_true (by rintro (h | h) <;> cases h) ⟨nofun, nofun⟩
        | securityCheck => exact iff_of_true (by rintro (h | h) <;> cases h) ⟨nofun, nofun⟩
  · -- nothing is changed
    have hsame : (extJsonHandle cfg p).cfg = cfg := by
      rcases extJsonHandle_cases cfg p with ⟨-, h, -⟩ | ⟨-, -, _, h, -⟩ | ⟨hyes, -⟩
      · exact h.2.1
      · rw [h]
      · exact absurd hyes hacts
    rw [hsame]
    refine iff_of_true (fun _ => ⟨Kept.refl _ _, fun _ _ => rfl⟩) ⟨fun hcmd htarget => ?_, ?_⟩
    · exact absurd (by unfold Acts; rw [hcmd]; exact ⟨hlogin, htarget⟩) hacts
    · exact fun _ h => absurd h hacts

/-- A `get_param` command that says nothing about the server. -/
def bareGetParam : List UInt8 := extIpCmdResponseTailCalculate
  (ascii "\x7b\"targ\":\"00:04:25:1c:10:02\",\"cmd\":\"get_param\",\"login-ack\":\"admin\"," ++
    ascii "\"pwd-msg\":\"admin\"") true

/-- The address of the server is overwritten, and the reply reports an error. -/
theorem not_ungivenKept_bareGetParam :
    ¬ UngivenKept (Device.factory 1) bareGetParam 0xC0A8A80A 5000 := by
  intro h
  obtain ⟨hkept, -⟩ := h (by decide +kernel) (by decide +kernel) (Or.inl (by decide +kernel))
  have hold := hkept.ipSvr811 (by decide +kernel)
  exact absurd hold (by decide +kernel)

end Cmd

end RtosLwip
