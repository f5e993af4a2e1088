import RtosLwip.Nmos.Node

/-!
# The Handlers of the Connection API

`nnmosConn.c` and `nnmosSdp.c`: what is answered to a GET request for an access point of
the connection API. A handler takes the resource whose identifier is in the request, and
without an identifier the first in the list. A NULL pointer that is followed has no
result.

The handlers that list resources or tell their constraints look whether there is one. The
others do not. A receiver has no subscriber, and a node that receives has no senders, so
some requests end in an access to address zero.

## Main definitions

* `ConnHandler`, `callback`: The handlers of the access points.
* `Reply`: What is answered.
* `Absent`, `Answered`: The request is for a resource that is not there, and it is answered
  as it should be.
* `Harmless`: The request is one of those that are.

## Theorems

* `selected_cases`: What a handler goes on with.
* `callback_receiversActive`, `answered_iff_followed`: The handlers that do not look.
* `answered_iff_harmless`: The requests that are answered.
-/

namespace RtosLwip

namespace Nmos

open Cmd (Uuid uuidIsNull extUuidEqual extUuidToString ip4addrNtoa isMulticast
  extCfgFromFactory)

/-- The error codes that the handlers answer with. -/
inductive WebRes where
  | notFound
  | methodNa
  | notImp
  deriving DecidableEq, Repr

/-- What is answered: `extHttpRestError`, or `WEB_RES_REQUEST_OK` and the data. -/
inductive Reply where
  | error (code : WebRes) (debug : List UInt8)
  | ok (data : List UInt8)
  deriving DecidableEq, Repr

/-- What a handler reads of the connection: the request, the time, and the memory behind the
    identifiers that are compared. -/
structure Request where
  uri : List UInt8
  uuid : Uuid
  uuidBehind : List UInt8
  idBehind : SourceFormat → List UInt8
  now : UInt32

/-- The handlers in the tree below `apConnRoot`. -/
inductive ConnHandler where
  | root
  | bulk
  | bulkSenders
  | bulkReceivers
  | single
  | senders
  | sendersConstraints
  | sendersStaged
  | sendersActive
  | sendersTransportfile
  | receivers
  | receiversConstraints
  | receiversStaged
  | receiversActive
  deriving DecidableEq, Repr

/-- The names of the access points. -/
def ConnHandler.name : ConnHandler → List UInt8
  | .root => ascii "/"
  | .bulk => ascii "bulk"
  | .single => ascii "single"
  | .bulkSenders | .senders => ascii "senders"
  | .bulkReceivers | .receivers => ascii "receivers"
  | .sendersConstraints | .receiversConstraints => ascii "constraints"
  | .sendersStaged | .receiversStaged => ascii "staged"
  | .sendersActive | .receiversActive => ascii "active"
  | .sendersTransportfile => ascii "transportfile"

/-- The children of the access points, from `child` on along `next`. -/
def ConnHandler.children : ConnHandler → List ConnHandler
  | .root => [.bulk, .single]
  | .bulk => [.bulkSenders, .bulkReceivers]
  | .single => [.senders, .receivers]
  | .senders => [.sendersConstraints, .sendersStaged, .sendersActive, .sendersTransportfile]
  | .receivers => [.receiversConstraints, .receiversStaged, .receiversActive]
  | _ => []

/-- The texts with commas between them, in brackets. -/
def bracketed (texts : List (List UInt8)) : List UInt8 :=
  91 :: [44].intercalate texts ++ [93]

/-- A text in quotes. -/
def quoted (text : List UInt8) : List UInt8 := 34 :: text ++ [34]

/-- `EXT_JSON_BOOL_STR`. -/
def jsonBool (b : UInt8) : List UInt8 := if b = 0 then ascii "false" else ascii "true"

/-- `extNmosRootApHander`. -/
def extNmosRootApHander (h : ConnHandler) : Reply :=
  .ok (bracketed (h.children.map fun child => quoted (child.name ++ [47])))

/-- `extNmosNodeDumpHander`. -/
def extNmosNodeDumpHander (req : Request) (h : ConnHandler) : Reply :=
  .error .notImp (req.uri ++ ascii "(" ++ h.name ++ ascii ")" ++
    ascii " will be implemented in future")

section Handlers

variable (m : Objects) (req : Request)

/-- `runCfg` of a node pointer. -/
def cfgOfNode : Option NodePtr → Option Cmd.RuntimeCfg
  | none => none
  | some .nmosNode => m.node.runCfg

/-- `runCfg` of the node of a device pointer. -/
def cfgOfDevice : Option DevicePtr → Option Cmd.RuntimeCfg
  | none => none
  | some .nmosDevice => cfgOfNode m m.device.node

/-- The resource that a pointer is to. -/
def resource : ResourcePtr → MuxNmosResource
  | .sender f => (m.sender f).resourceId
  | .receiver f => (m.receiver f).resourceId

/-- The device of the node of the connection. -/
def device : Option MuxNmosDevice :=
  match m.node.device with
  | none => none
  | some .nmosDevice => some m.device

/-- A resource in a list has the identifier of the request. -/
def isAsked (id : SourceFormat → Uuid) (f : SourceFormat) : Bool :=
  extUuidEqual req.uuid req.uuidBehind (id f) (req.idBehind f)

/-- The loop over a list, up to the resource of the request. -/
def findAsked (id : SourceFormat → Uuid) (list : List SourceFormat) : Option SourceFormat :=
  list.find? (isAsked req id)

/-- The pointer with which a handler goes on: to the resource of the request, or to the first
    of the list. There is none if the request is answered with an error. -/
def selected (id : SourceFormat → Uuid) (list : List SourceFormat) :
    Option (Option SourceFormat) :=
  if uuidIsNull req.uuid then some list.head?
  else match findAsked req id list with
    | some f => some (some f)
    | none => none

/-- The address of a configuration as text. -/
def localIp (cfg : Cmd.RuntimeCfg) : List UInt8 := ip4addrNtoa cfg.local.ip

def destIp (cfg : Cmd.RuntimeCfg) : List UInt8 := ip4addrNtoa cfg.dest.ip

/-- A name and the one text that is its value. -/
def enumOf (name text : List UInt8) : List UInt8 :=
  quoted name ++ ascii ":\x7b\"enum\":[" ++ quoted text ++ ascii "]\x7d,"

/-- A name and a range of ports. -/
def rangeOf (name : List UInt8) (mini range : UInt16) : List UInt8 :=
  quoted name ++ ascii ":\x7b\"minimum\":" ++ dec mini.toNat ++ ascii ",\"maximum\":" ++
    dec (mini.toNat + range.toNat) ++ ascii "\x7d,"

/-- `_nmosConstraintsHander`. -/
def nmosConstraintsHander (cstrts : MuxNmosConstraints) (isSender : Bool) :
    Option (List UInt8) := do
  let parent ← cstrts.parent
  let cfg ← cfgOfNode m (resource m parent).node
  let own :=
    if isSender then
      enumOf (ascii "destination_ip") (destIp cfg) ++
        rangeOf (ascii "source_port") cstrts.sourcePortMini cstrts.portRange
    else
      enumOf (ascii "multicast_ip") (destIp cfg) ++ enumOf (ascii "interface_ip") (localIp cfg)
  return ascii "\x7b" ++ enumOf (ascii "source_ip") (localIp cfg) ++ own ++
    rangeOf (ascii "destination_port") cstrts.destPortMini cstrts.portRange ++
    ascii "\"fec_enabled\":" ++ jsonBool cstrts.fecEnabled ++
    ascii ",\"rtcp_enabled\":" ++ jsonBool cstrts.rtcpEnabled ++
    ascii ",\"rtp_enabled\":" ++ jsonBool cstrts.rtpEnabled ++ ascii "\x7d"

/-- The ports of a format, of the sender's side and of the other. -/
def portsOf (cfg : Cmd.RuntimeCfg) : SourceFormat → UInt16 × UInt16
  | .audio => (cfg.local.aport, cfg.dest.aport)
  | .video => (cfg.local.vport, cfg.dest.vport)
  | .data => (cfg.local.vport, cfg.dest.vport)

/-- The activation as the two handlers for what is active tell it. -/
def activation : List UInt8 :=
  ascii "\"activation\":\x7b\"mode\":\"activate_immediate\",\"requested_time\":\"" ++
    dec req.now.toNat ++ ascii ":0\",\"activation_time\":\"" ++ dec req.now.toNat ++
    ascii ":0\"\x7d,"

/-- The transport parameters. -/
def transportParams (cfg : Cmd.RuntimeCfg) (format : SourceFormat) : List UInt8 :=
  ascii "\"transport_params\":[\x7b" ++ enumOf (ascii "source_ip") (localIp cfg) ++
    enumOf (ascii "destination_ip") (destIp cfg) ++
    ascii "\"source_port\":" ++ dec (portsOf cfg format).1.toNat ++
    ascii ",\"destination_port\":" ++ dec (portsOf cfg format).2.toNat ++
    ascii ",\"fec_enabled\":false,\"rtcp_enabled\":false,\"rtp_enabled\":true\x7d]"

/-- `_connSingleReceiverActiveHander`. -/
def connSingleReceiverActiveHander : Option Reply := do
  let dev ← device m
  match selected req (fun f => (m.receiver f).resourceId.uuid) dev.receivers with
  | none => return .error .notFound (ascii "ID not found for sender")
  | some ptr =>
      let rcv := m.receiver (← ptr)
      let subscriber := m.sender (← rcv.subscriber)
      let cfg ← cfgOfDevice m rcv.device
      return .ok (ascii "\x7b\"sender_id\":" ++
        quoted (extUuidToString subscriber.resourceId.uuid) ++ ascii ",\"master_enable\":true," ++
        activation req ++ transportParams cfg rcv.format ++ ascii "\x7d")

/-- `_connSingleReceiveConstraintsHander`. -/
def connSingleReceiveConstraintsHander : Option Reply := do
  let dev ← device m
  match selected req (fun f => (m.receiver f).resourceId.uuid) dev.receivers with
  | none => return .error .notFound (ascii "ID not found for receiver")
  | some none => return .ok (bracketed [])
  | some (some f) =>
      return .ok (bracketed [← nmosConstraintsHander m (m.receiver f).constraints false])

/-- `_connSingleReceiversHander`. -/
def connSingleReceiversHander : Option Reply := do
  let dev ← device m
  let id := fun f => (m.receiver f).resourceId.uuid
  if uuidIsNull req.uuid then
    return .ok (bracketed (dev.receivers.map fun f => quoted (extUuidToString (id f))))
  else match findAsked req id dev.receivers with
    | some _ => return extNmosRootApHander .receivers
    | none => return .error .notFound (ascii "ID not found for receiver")

/-- `_nmosSdpSessionTimeHander`. -/
def nmosSdpSessionTimeHander (snd : MuxNmosSender) : Option (List UInt8) := do
  let cfg ← cfgOfDevice m snd.device
  let flow := m.flow (← snd.flow)
  return ascii "v=0\n" ++
    ascii "o=" ++ cfg.user.val ++ ascii " " ++ dec req.now.toNat ++ ascii " " ++
    dec req.now.toNat ++ ascii " IN IP4 " ++ localIp cfg ++ ascii "\n" ++
    ascii "s=NMOS " ++ (if flow.format = .audio then ascii "audio" else ascii "video") ++
    ascii " stream\n" ++
    ascii "c=IN IP4 " ++ (if isMulticast cfg.dest.ip then destIp cfg else localIp cfg) ++
    ascii "/1\n" ++ ascii "t=0 0\n"

/-- `NMOS_FIND_COLOR_SPACE`. -/
def findColorSpace : ColorSpace → List UInt8
  | .bt601 => ascii "BT601"
  | .bt709 => ascii "BT709"
  | .bt2022 => ascii "BT2020"
  | .bt2100 => ascii "BT2100"

/-- `NMOS_FIND_TRANSFER_CHARC`. -/
def findTransferCharacter : TransferCharacter → List UInt8
  | .sdr => ascii "SDR"
  | .hlg => ascii "HLG"
  | .pq => ascii "PQ"

/-- The first eight bytes of an identifier, as `%x` with dashes between them. -/
def clockId (uuid : Uuid) : List UInt8 :=
  [45].intercalate ((uuid.toList.take 8).map fun b => hex b.toNat)

/-- `_nmosSdpMediaHander`. -/
def nmosSdpMediaHander (snd : MuxNmosSender) : Option (List UInt8) := do
  let flow := m.flow (← snd.flow)
  let cfg ← cfgOfDevice m snd.device
  match flow.format with
  | .audio =>
      return ascii "m=audio " ++ dec cfg.local.aport.toNat ++ ascii " RTP/AVP 96\n" ++
        ascii "a=rtpmap:96 L16/" ++ dec flow.sampleRate.toNat ++ ascii "/2\n" ++
        ascii "a=readonly\n" ++ ascii "a=ptime:1\n" ++
        ascii "a=mediaclk:direct=" ++ dec req.now.toNat ++ ascii "\n" ++
        ascii "a=ts-refclk:ptp=IEEE1588-2008:" ++ clockId snd.resourceId.uuid ++
        ascii ":domain-nmbr=0\n"
  | .video =>
      let source := m.source (← flow.source)
      return ascii "m=video " ++ dec cfg.local.vport.toNat ++ ascii " RTP/AVP 96\n" ++
        ascii "a=rtpmap:96 raw/90000\n" ++
        ascii "a=fmtp:96 sample=YCbCr-4:2:2;width:" ++ dec flow.frameWidth.toNat ++
        ascii ";height:" ++ dec flow.frameHeight.toNat ++ ascii ";exactframearte=" ++
        dec source.gRate.toNat ++ ascii "/" ++ dec source.gRate.toNat ++ ascii ";depth=" ++
        dec flow.bitDepth.toNat ++ ascii ";TCS=" ++ findTransferCharacter flow.transferCharacter ++
        ascii ";colorimetry=" ++ findColorSpace flow.colorspace ++
        ascii ";PM=2119GPM;SSN=\"ST2110-20:2017\"\n"
  | .data =>
      return ascii "a=group:FID V1 M1\n" ++
        ascii "m=video " ++ dec cfg.local.dport.toNat ++ ascii " RTP/AVP 106\n" ++
        ascii "a=rtpmap:106 ampte291/90000\n" ++
        ascii "a=fmtp:106 DID_SDID=\x7b0x61,0x2\x7d;DID_SDID=\x7b0x41,0x5\x7d\n" ++
        ascii "a=mid:M1\n"

/-- `_connSingleSenderTransportFileHander`. -/
def connSingleSenderTransportFileHander : Option Reply := do
  let dev ← device m
  match selected req (fun f => (m.sender f).resourceId.uuid) dev.senders with
  | none => return .error .notFound (ascii "ID not found for sender")
  | some ptr =>
      let snd := m.sender (← ptr)
      return .ok ((← nmosSdpSessionTimeHander m req snd) ++ (← nmosSdpMediaHander m req snd))

/-- The receiver that has subscribed to a sender. -/
def receiverId (snd : MuxNmosSender) : List UInt8 :=
  match snd.subscriber with
  | some f => ascii "\"receiver_id\":" ++
      quoted (extUuidToString (m.receiver f).resourceId.uuid) ++ ascii ","
  | none => ascii "\"receiver_id\":null,"

/-- `_connSingleSenderActiveHander` and `_connSingleSenderStageHander`, which tell of the
    activation in their own way. -/
def senderHander (activation : List UInt8) : Option Reply := do
  let dev ← device m
  match selected req (fun f => (m.sender f).resourceId.uuid) dev.senders with
  | none => return .error .notFound (ascii "ID not found for sender")
  | some ptr =>
      let snd := m.sender (← ptr)
      let cfg ← cfgOfDevice m snd.device
      let flow := m.flow (← snd.flow)
      return .ok (ascii "\x7b" ++ receiverId m snd ++ ascii "\"master_enable\":true," ++
        activation ++ transportParams cfg flow.format ++ ascii "\x7d")

def connSingleSenderActiveHander : Option Reply := senderHander m req (activation req)

def connSingleSenderStageHander : Option Reply :=
  senderHander m req (ascii "\"activation\":\x7b\"mode\":true,\"requested_time\":null," ++
    ascii "\"activation_time\":null\x7d,")

/-- `_connSingleSenderConstraintsHander`. -/
def connSingleSenderConstraintsHander : Option Reply := do
  let dev ← device m
  match selected req (fun f => (m.sender f).resourceId.uuid) dev.senders with
  | none => return .error .notFound (ascii "ID not found for sender")
  | some none => return .ok (bracketed [])
  | some (some f) =>
      return .ok (bracketed [← nmosConstraintsHander m (m.sender f).constraints true])

/-- `_connSingleSendersHander`. -/
def connSingleSendersHander : Option Reply := do
  let dev ← device m
  let id := fun f => (m.sender f).resourceId.uuid
  if uuidIsNull req.uuid then
    return .ok (bracketed (dev.senders.map fun f => quoted (extUuidToString (id f))))
  else match findAsked req id dev.senders with
    | some _ => return extNmosRootApHander .senders
    | none => return .error .notFound (ascii "ID not found for sender")

/-- The callback of an access point, for a GET request. -/
def callback : ConnHandler → Option Reply
  | .root => some (extNmosRootApHander .root)
  | .bulk => some (extNmosRootApHander .bulk)
  | .single => some (extNmosRootApHander .single)
  | .bulkSenders | .bulkReceivers => some (.error .methodNa (ascii "GET is not allowed"))
  | .senders => connSingleSendersHander m req
  | .sendersConstraints => connSingleSenderConstraintsHander m req
  | .sendersStaged => connSingleSenderStageHander m req
  | .sendersActive => connSingleSenderActiveHander m req
  | .sendersTransportfile => connSingleSenderTransportFileHander m req
  | .receivers => connSingleReceiversHander m req
  | .receiversConstraints => connSingleReceiveConstraintsHander m req
  | .receiversStaged => some (extNmosNodeDumpHander req .receiversStaged)
  | .receiversActive => connSingleReceiverActiveHander m req

end Handlers

/-- The resources that a handler is about: their identifiers and their list. -/
def resourcesOf (m : Objects) : ConnHandler → Option ((SourceFormat → Uuid) × List SourceFormat)
  | .senders | .sendersConstraints | .sendersStaged | .sendersActive | .sendersTransportfile =>
      some (fun f => (m.sender f).resourceId.uuid, m.device.senders)
  | .receivers | .receiversConstraints | .receiversStaged | .receiversActive =>
      some (fun f => (m.receiver f).resourceId.uuid, m.device.receivers)
  | _ => none

/-- The node does not have the resource of the request, or any without an identifier. -/
def Absent (m : Objects) (req : Request) (h : ConnHandler) : Prop :=
  ∃ id list, resourcesOf m h = some (id, list) ∧
    if uuidIsNull req.uuid then list = [] else findAsked req id list = none

/-- An error, or an empty list. -/
inductive Refused : Reply → Prop where
  | error (code : WebRes) (debug : List UInt8) : Refused (.error code debug)
  | empty : Refused (.ok (bracketed []))

/-- No NULL pointer is followed, and a resource that is not there is refused. -/
def Answered (m : Objects) (req : Request) (h : ConnHandler) : Prop :=
  ∃ reply, callback m req h = some reply ∧ (Absent m req h → Refused reply)

/-- The requests that a node of this configuration answers. -/
def Harmless (ids : Ids) (cfg : Cmd.RuntimeCfg) (req : Request) : ConnHandler → Prop
  | .receiversActive =>
      uuidIsNull req.uuid = false ∧
        (cfg.isTransmitter ∨ ∀ f, isAsked req ids.receiver f = false)
  | .sendersStaged | .sendersActive | .sendersTransportfile =>
      cfg.isTransmitter ∨ uuidIsNull req.uuid = false
  | _ => True

/-- What `selected` gives. -/
inductive Selected (req : Request) (id : SourceFormat → Uuid) (list : List SourceFormat) :
    Option (Option SourceFormat) → Prop where
  | refused (hnull : uuidIsNull req.uuid = false) (hfind : findAsked req id list = none) :
      Selected req id list none
  | nothing (hnull : uuidIsNull req.uuid = true) (hlist : list = []) :
      Selected req id list (some none)
  | found (f : SourceFormat) (hf : f ∈ list)
      (hthere : ¬ if uuidIsNull req.uuid then list = [] else findAsked req id list = none) :
      Selected req id list (some (some f))

theorem selected_cases (req : Request) (id : SourceFormat → Uuid) (list : List SourceFormat) :
    Selected req id list (selected req id list) := by
  unfold selected
  split
  next hnull =>
    cases list with
    | nil => exact .nothing hnull rfl
    | cons f rest =>
        exact .found f List.mem_cons_self (by rw [if_pos hnull]; exact List.cons_ne_nil f rest)
  next hnull =>
    split
    next f hfind =>
      refine .found f (List.mem_of_find?_eq_some hfind) ?_
      rw [if_neg hnull, hfind]
      exact Option.some_ne_none f
    next hfind => exact .refused (Bool.eq_false_of_not_eq_true hnull) hfind

/-- An access point that is not about resources. -/
theorem answered_of_general {m : Objects} {req : Request} {h : ConnHandler} {reply : Reply}
    (hcallback : callback m req h = some reply) (hgeneral : resourcesOf m h = none) :
    Answered m req h := by
  refine ⟨reply, hcallback, fun habsent => ?_⟩
  rcases habsent with ⟨_, _, hof, _⟩
  rw [hgeneral] at hof
  cases hof

/-- An access point that is answered with an error, whatever is asked for. -/
theorem answered_of_error {m : Objects} {req : Request} {h : ConnHandler} {code : WebRes}
    {debug : List UInt8} (hcallback : callback m req h = some (.error code debug)) :
    Answered m req h :=
  ⟨_, hcallback, fun _ => .error code debug⟩

/-- The handlers that select a resource: if they refuse one that is not in the list, and
    answer for each that is, it matters what they do without any. -/
theorem answered_of_selected {m : Objects} {req : Request} {h : ConnHandler}
    {id : SourceFormat → Uuid} {list : List SourceFormat}
    (hof : resourcesOf m h = some (id, list))
    (hrefused : selected req id list = none →
      ∃ code debug, callback m req h = some (.error code debug))
    (hfound : ∀ f ∈ list, selected req id list = some (some f) →
      ∃ reply, callback m req h = some reply)
    (hnothing : uuidIsNull req.uuid = true → list = [] → selected req id list = some none →
      ∃ reply, callback m req h = some reply ∧ Refused reply) :
    Answered m req h := by
  have hcases := selected_cases req id list
  generalize hselected : selected req id list = ptr at hcases
  cases hcases with
  | refused hnull hfind =>
      rcases hrefused hselected with ⟨code, debug, hcallback⟩
      exact answered_of_error hcallback
  | nothing hnull hlist =>
      rcases hnothing hnull hlist hselected with ⟨reply, hcallback, hreply⟩
      exact ⟨reply, hcallback, fun _ => hreply⟩
  | found f hf hthere =>
      rcases hfound f hf hselected with ⟨reply, hcallback⟩
      refine ⟨reply, hcallback, fun habsent => ?_⟩
      -- The resource is there, so the request is not for an absent one.
      rcases habsent with ⟨id', list', hof', habsent⟩
      rw [hof] at hof'
      cases hof'
      exact absurd habsent hthere

/-- The handlers of the lists. -/
theorem answered_of_listed {m : Objects} {req : Request} {h : ConnHandler}
    {id : SourceFormat → Uuid} {list : List SourceFormat} {names : Reply} {code : WebRes}
    {debug : List UInt8} (hof : resourcesOf m h = some (id, list))
    (hcallback : callback m req h =
      if uuidIsNull req.uuid then
        some (.ok (bracketed (list.map fun f => quoted (extUuidToString (id f)))))
      else match findAsked req id list with
        | some _ => some names
        | none => some (.error code debug)) :
    Answered m req h := by
  unfold Answered
  rw [hcallback]
  split
  next hnull =>
    refine ⟨_, rfl, fun habsent => ?_⟩
    rcases habsent with ⟨id', list', hof', habsent⟩
    rw [hof] at hof'
    cases hof'
    rw [if_pos hnull] at habsent
    rw [habsent]
    exact .empty
  next hnull =>
    split
    next f hfind =>
      refine ⟨_, rfl, fun habsent => ?_⟩
      rcases habsent with ⟨id', list', hof', habsent⟩
      rw [hof] at hof'
      cases hof'
      rw [if_neg hnull, hfind] at habsent
      cases habsent
    next hfind => exact ⟨_, rfl, fun _ => .error code debug⟩

/-- The handlers of the constraints look whether there is a resource. -/
theorem answered_of_constraints {m : Objects} {req : Request} {h : ConnHandler}
    {id : SourceFormat → Uuid} {list : List SourceFormat} {debug : List UInt8}
    {text : SourceFormat → Option (List UInt8)} (hof : resourcesOf m h = some (id, list))
    (hcallback : callback m req h =
      match selected req id list with
      | none => some (.error .notFound debug)
      | some none => some (.ok (bracketed []))
      | some (some f) => (text f).map fun t => .ok (bracketed [t]))
    (htext : ∀ f ∈ list, ∃ t, text f = some t) : Answered m req h := by
  refine answered_of_selected hof (fun hselected => ?_) (fun f hf hselected => ?_)
    (fun _ _ hselected => ?_)
  · exact ⟨_, _, by rw [hcallback, hselected]⟩
  · rcases htext f hf with ⟨t, ht⟩
    refine ⟨.ok (bracketed [t]), ?_⟩
    rw [hcallback, hselected]
    dsimp only
    rw [ht, Option.map_some]
  · exact ⟨_, by rw [hcallback, hselected], .empty⟩

/-- What the handlers that follow the pointer have in common: there is an answer unless they
    have been left with NULL. -/
theorem answered_iff_followed {m : Objects} {req : Request} {h : ConnHandler}
    {body : SourceFormat → Option Reply}
    (hof : resourcesOf m h = some (fun f => (m.sender f).resourceId.uuid, m.device.senders))
    (hcallback : callback m req h =
      match selected req (fun f => (m.sender f).resourceId.uuid) m.device.senders with
      | none => some (.error .notFound (ascii "ID not found for sender"))
      | some ptr => ptr.bind body)
    (hbody : ∀ f ∈ m.device.senders, ∃ reply, body f = some reply) :
    Answered m req h ↔ m.device.senders ≠ [] ∨ uuidIsNull req.uuid = false := by
  constructor
  · intro hanswered
    by_contra hnot
    rw [not_or, not_not, Bool.not_eq_false] at hnot
    rcases hanswered with ⟨reply, hreply, _⟩
    -- The list is empty, and its head is what the handler goes on with.
    rw [hcallback, selected, if_pos hnot.2, hnot.1] at hreply
    cases hreply
  · intro hor
    refine answered_of_selected hof (fun hselected => ?_) (fun f hf hselected => ?_)
      (fun hnull hlist _ => ?_)
    · exact ⟨_, _, by rw [hcallback, hselected]⟩
    · rcases hbody f hf with ⟨reply, hreply⟩
      exact ⟨reply, by rw [hcallback, hselected]; exact hreply⟩
    · rcases hor with hne | hnot
      · exact absurd hlist hne
      · rw [hnull] at hnot
        cases hnot

section Answers

variable {m : Objects} {cfg : Cmd.RuntimeCfg} (hm : Wired m cfg) (req : Request)

include hm

theorem device_eq : device m = some m.device := by
  rw [device, hm.device]

theorem cfgOfNode_eq : cfgOfNode m (some .nmosNode) = some cfg := hm.runCfg

theorem cfgOfDevice_eq : cfgOfDevice m (some .nmosDevice) = some cfg := by
  rw [cfgOfDevice, hm.node]
  exact cfgOfNode_eq hm

/-- A receiver has no subscriber, and without a receiver there is none to be asked either. -/
theorem callback_receiversActive :
    callback m req .receiversActive =
      if uuidIsNull req.uuid = false ∧
          findAsked req (fun f => (m.receiver f).resourceId.uuid) m.device.receivers = none then
        some (.error .notFound (ascii "ID not found for sender"))
      else
        none := by
  have hnone : ∀ f ∈ m.device.receivers, (m.receiver f).subscriber = none :=
    fun f hf => (hm.receivers f hf).subscriber
  rw [callback, connSingleReceiverActiveHander, device_eq hm, Option.bind_eq_bind,
    Option.bind_some]
  have hcases := selected_cases req (fun f => (m.receiver f).resourceId.uuid) m.device.receivers
  generalize selected req (fun f => (m.receiver f).resourceId.uuid) m.device.receivers = ptr
    at hcases ⊢
  cases hcases with
  | refused hnull hfind =>
      rw [if_pos ⟨hnull, hfind⟩]
      rfl
  | nothing hnull hlist =>
      -- the head of the empty list is followed
      rw [if_neg (by rw [hnull]; exact fun h => Bool.noConfusion h.1)]
      rfl
  | found f hf hthere =>
      -- the receiver is there, but its subscriber is followed
      rw [if_neg]
      · simp only [Option.bind_eq_bind, Option.bind_some, hnone f hf, Option.bind_none]
      · intro h
        rw [h.1, if_neg Bool.false_ne_true] at hthere
        exact hthere h.2

/-- The constraints of a resource with a parent. -/
theorem nmosConstraintsHander_isSome {cstrts : MuxNmosConstraints} {parent : ResourcePtr}
    (hparent : cstrts.parent = some parent) (hnode : (resource m parent).node = some .nmosNode)
    (isSender : Bool) : ∃ text, nmosConstraintsHander m cstrts isSender = some text := by
  rw [nmosConstraintsHander, hparent, Option.bind_eq_bind, Option.bind_some, hnode,
    cfgOfNode_eq hm, Option.bind_eq_bind, Option.bind_some]
  exact ⟨_, rfl⟩

theorem answered_sendersConstraints : Answered m req .sendersConstraints := by
  refine @answered_of_constraints m req _ _ _ (ascii "ID not found for sender")
    (fun f => nmosConstraintsHander m (m.sender f).constraints true) rfl ?_ fun f hf =>
      nmosConstraintsHander_isSome hm (hm.senders f hf).parent (hm.senders f hf).node true
  rw [callback, connSingleSenderConstraintsHander, device_eq hm, Option.bind_eq_bind,
    Option.bind_some]
  split
  next => rfl
  next => rfl
  next f => exact (Option.map_eq_bind).symm

theorem answered_receiversConstraints : Answered m req .receiversConstraints := by
  refine @answered_of_constraints m req _ _ _ (ascii "ID not found for receiver")
    (fun f => nmosConstraintsHander m (m.receiver f).constraints false) rfl ?_ fun f hf =>
      nmosConstraintsHander_isSome hm (hm.receivers f hf).parent (hm.receivers f hf).node false
  rw [callback, connSingleReceiveConstraintsHander, device_eq hm, Option.bind_eq_bind,
    Option.bind_some]
  split
  next => rfl
  next => rfl
  next f => exact (Option.map_eq_bind).symm

/-- The handlers of the lists: all of it, the names below one that is there, or an error. -/
theorem answered_senders : Answered m req .senders := by
  have hcallback : callback m req .senders =
      if uuidIsNull req.uuid then
        some (.ok (bracketed (m.device.senders.map fun f =>
          quoted (extUuidToString (m.sender f).resourceId.uuid))))
      else match findAsked req (fun f => (m.sender f).resourceId.uuid) m.device.senders with
        | some _ => some (extNmosRootApHander .senders)
        | none => some (.error .notFound (ascii "ID not found for sender")) := by
    rw [callback, connSingleSendersHander, device_eq hm, Option.bind_eq_bind, Option.bind_some]
    split
    · rfl
    · dsimp only
      split
      · rfl
      · rfl
  exact answered_of_listed rfl hcallback

theorem answered_receivers : Answered m req .receivers := by
  have hcallback : callback m req .receivers =
      if uuidIsNull req.uuid then
        some (.ok (bracketed (m.device.receivers.map fun f =>
          quoted (extUuidToString (m.receiver f).resourceId.uuid))))
      else match findAsked req (fun f => (m.receiver f).resourceId.uuid) m.device.receivers with
        | some _ => some (extNmosRootApHander .receivers)
        | none => some (.error .notFound (ascii "ID not found for receiver")) := by
    rw [callback, connSingleReceiversHander, device_eq hm, Option.bind_eq_bind, Option.bind_some]
    split
    · rfl
    · dsimp only
      split
      · rfl
      · rfl
  exact answered_of_listed rfl hcallback

/-- The media lines of a sender. Those for video are also about its source. -/
theorem nmosSdpMediaHander_isSome {snd : MuxNmosSender} {f : SourceFormat}
    (hdevice : snd.device = some .nmosDevice) (hflow : snd.flow = some f)
    (hsource : (m.flow f).source = some f) :
    ∃ text, nmosSdpMediaHander m req snd = some text := by
  rw [nmosSdpMediaHander, hflow, Option.bind_eq_bind, Option.bind_some, hdevice,
    cfgOfDevice_eq hm, Option.bind_eq_bind, Option.bind_some]
  cases (m.flow f).format with
  | video =>
      dsimp only
      rw [hsource]
      exact ⟨_, rfl⟩
  | audio => exact ⟨_, rfl⟩
  | data => exact ⟨_, rfl⟩

theorem nmosSdpSessionTimeHander_isSome {snd : MuxNmosSender} {f : SourceFormat}
    (hdevice : snd.device = some .nmosDevice) (hflow : snd.flow = some f) :
    ∃ text, nmosSdpSessionTimeHander m req snd = some text := by
  rw [nmosSdpSessionTimeHander, hdevice, cfgOfDevice_eq hm, Option.bind_eq_bind,
    Option.bind_some, hflow, Option.bind_eq_bind, Option.bind_some]
  exact ⟨_, rfl⟩

theorem answered_iff_sendersTransportfile :
    Answered m req .sendersTransportfile ↔
      m.device.senders ≠ [] ∨ uuidIsNull req.uuid = false := by
  refine @answered_iff_followed m req _ (fun f => do
    return .ok ((← nmosSdpSessionTimeHander m req (m.sender f)) ++
      (← nmosSdpMediaHander m req (m.sender f)))) rfl ?_ (fun f hf => ?_)
  · rw [callback, connSingleSenderTransportFileHander, device_eq hm, Option.bind_eq_bind,
      Option.bind_some]
    rfl
  · have hsnd := hm.senders f hf
    rcases nmosSdpSessionTimeHander_isSome hm req hsnd.device hsnd.flow with ⟨session, hsession⟩
    rcases nmosSdpMediaHander_isSome hm req hsnd.device hsnd.flow hsnd.source with ⟨media, hmedia⟩
    exact ⟨.ok (session ++ media), by
      simp only [hsession, hmedia, Option.bind_eq_bind, Option.bind_some, Option.pure_def]⟩

/-- Both handlers of `senderHander`. -/
theorem answered_iff_senderHander {h : ConnHandler} {activation : List UInt8}
    (hof : resourcesOf m h = some (fun f => (m.sender f).resourceId.uuid, m.device.senders))
    (hcallback : callback m req h = senderHander m req activation) :
    Answered m req h ↔ m.device.senders ≠ [] ∨ uuidIsNull req.uuid = false := by
  refine @answered_iff_followed m req _ (fun f => do
    let snd := m.sender f
    let cfg ← cfgOfDevice m snd.device
    let flow := m.flow (← snd.flow)
    return .ok (ascii "\x7b" ++ receiverId m snd ++ ascii "\"master_enable\":true," ++
      activation ++ transportParams cfg flow.format ++ ascii "\x7d")) hof ?_ (fun f hf => ?_)
  · rw [hcallback, senderHander, device_eq hm, Option.bind_eq_bind, Option.bind_some]
    rfl
  · have hsnd := hm.senders f hf
    simp only [hsnd.device, hsnd.flow, cfgOfDevice_eq hm, Option.bind_eq_bind, Option.bind_some,
      Option.pure_def]
    exact ⟨_, rfl⟩

/-- A receiver that is there is asked for, and its subscriber is none. -/
theorem answered_iff_receiversActive :
    Answered m req .receiversActive ↔ uuidIsNull req.uuid = false ∧
      ∀ f ∈ m.device.receivers,
        isAsked req (fun f => (m.receiver f).resourceId.uuid) f = false := by
  have hfind : findAsked req (fun f => (m.receiver f).resourceId.uuid) m.device.receivers = none ↔
      ∀ f ∈ m.device.receivers,
        isAsked req (fun f => (m.receiver f).resourceId.uuid) f = false := by
    rw [findAsked, List.find?_eq_none]
    simp only [Bool.not_eq_true]
  rw [← hfind]
  have hcallback := callback_receiversActive hm req
  constructor
  · intro hanswered
    rcases hanswered with ⟨reply, hreply, _⟩
    by_contra hnot
    rw [hcallback, if_neg hnot] at hreply
    cases hreply
  · intro hboth
    rw [if_pos hboth] at hcallback
    exact answered_of_error hcallback

end Answers

section Roles

variable (ids : Ids) (cfg : Cmd.RuntimeCfg)

/-- The receivers of a node have the identifiers that were made for them. -/
theorem receiver_uuid_extNmosNodeInit {f : SourceFormat}
    (hf : f ∈ (extNmosNodeInit ids cfg).device.receivers) :
    ((extNmosNodeInit ids cfg).receiver f).resourceId.uuid = ids.receiver f := by
  have hreceivers := receivers_extNmosNodeInit ids cfg
  rw [hreceivers] at hf
  unfold extNmosNodeInit
  dsimp only
  split at hf
  next htx => exact absurd hf List.not_mem_nil
  next hrx =>
    rw [if_neg hrx]
    cases f with
    | video => rfl
    | audio => rfl
    | data => rfl

theorem senders_ne_nil_iff :
    (extNmosNodeInit ids cfg).device.senders ≠ [] ↔ cfg.isTransmitter := by
  rw [senders_extNmosNodeInit]
  split
  next htx => exact iff_of_true (List.cons_ne_nil _ _) htx
  next hrx => exact iff_of_false (fun h => h rfl) hrx

theorem isAsked_receivers_iff (req : Request) :
    (∀ f ∈ (extNmosNodeInit ids cfg).device.receivers,
      isAsked req (fun f => ((extNmosNodeInit ids cfg).receiver f).resourceId.uuid) f = false) ↔
    (cfg.isTransmitter ∨ ∀ f, isAsked req ids.receiver f = false) := by
  have hasked : ∀ f ∈ (extNmosNodeInit ids cfg).device.receivers,
      isAsked req (fun f => ((extNmosNodeInit ids cfg).receiver f).resourceId.uuid) f =
        isAsked req ids.receiver f := by
    intro f hf
    unfold isAsked
    dsimp only
    rw [receiver_uuid_extNmosNodeInit ids cfg hf]
  rw [forall₂_congr fun f hf => by rw [hasked f hf], receivers_extNmosNodeInit]
  split
  next htx => exact iff_of_true (fun f hf => absurd hf List.not_mem_nil) (Or.inl htx)
  next hrx =>
    constructor
    · intro h
      refine Or.inr fun f => h f ?_
      cases f with
      | video => decide
      | audio => decide
      | data => decide
    · intro h f _
      exact h.resolve_left hrx f

/-- The node answers exactly the harmless requests as it should: the handlers that look for
    the resource always, the others unless there is none to be found. -/
theorem answered_iff_harmless (req : Request) (h : ConnHandler) :
    Answered (extNmosNodeInit ids cfg) req h ↔ Harmless ids cfg req h := by
  have hm := wired_extNmosNodeInit ids cfg
  cases h with
  | root | bulk | single | bulkSenders | bulkReceivers =>
      exact iff_of_true (answered_of_general rfl rfl) trivial
  | receiversStaged => exact iff_of_true (answered_of_error rfl) trivial
  | senders => exact iff_of_true (answered_senders hm req) trivial
  | receivers => exact iff_of_true (answered_receivers hm req) trivial
  | sendersConstraints => exact iff_of_true (answered_sendersConstraints hm req) trivial
  | receiversConstraints => exact iff_of_true (answered_receiversConstraints hm req) trivial
  | sendersStaged =>
      rw [answered_iff_senderHander hm req rfl rfl, senders_ne_nil_iff, Harmless]
  | sendersActive =>
      rw [answered_iff_senderHander hm req rfl rfl, senders_ne_nil_iff, Harmless]
  | sendersTransportfile =>
      rw [answered_iff_sendersTransportfile hm req, senders_ne_nil_iff, Harmless]
  | receiversActive =>
      rw [answered_iff_receiversActive hm req, isAsked_receivers_iff, Harmless]

end Roles

/-- A node with the configuration it is delivered with, which receives. -/
def deliveredNode : Objects :=
  extNmosNodeInit
    { node := .replicate 16 1
      device := .replicate 16 2
      sender := fun _ => .replicate 16 3
      receiver := fun _ => .replicate 16 4
      flow := fun _ => .replicate 16 5
      source := fun _ => .replicate 16 6 }
    (extCfgFromFactory .zero)

/-- A request without an identifier. -/
def plainRequest : Request := ⟨ascii "/", .zero, [], fun _ => [], 0⟩

/-- The subscriber of the first receiver is NULL, and so is the first sender. -/
theorem callback_deliveredNode :
    callback deliveredNode plainRequest .receiversActive = none ∧
      Absent deliveredNode plainRequest .sendersTransportfile ∧
      callback deliveredNode plainRequest .sendersTransportfile = none :=
  ⟨rfl, ⟨_, _, rfl, rfl⟩, rfl⟩

end Nmos

end RtosLwip
