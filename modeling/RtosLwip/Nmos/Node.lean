import RtosLwip.Cmd.Config
import RtosLwip.Cmd.Identifiers

/-!
# The Node and its Resources

`nnmosInit.c`: the objects of the NMOS node, which are static variables with pointers
between them. A node that transmits has a source, a flow and a sender for video, audio
and data each, and a node that receives has three receivers. A pointer is to one of the
static variables or NULL, and a list that is chained by `next` pointers is the list of
its elements, the head first.

## Main definitions

* `MuxNmosSender`, `MuxNmosReceiver`, `MuxNmosFlow`, `MuxNmosSource`: The objects.
* `Objects`: All of the static variables.
* `extNmosNodeInit`: The initialisation.

## Theorems

* `receivers_extNmosNodeInit`, `senders_extNmosNodeInit`: The lists of either role.
* `wired_extNmosNodeInit`: The pointers of the objects in the lists.
-/

namespace RtosLwip

namespace Nmos

open Cmd (Uuid)

/-- `NMOS_SOURCE_FORMAT`, without the one that no object has. -/
inductive SourceFormat where
  | video
  | audio
  | data
  deriving DecidableEq, Repr

/-- A pointer to `nmosNode`. -/
inductive NodePtr where
  | nmosNode
  deriving DecidableEq, Repr

/-- A pointer to `_nmosDevice`. -/
inductive DevicePtr where
  | nmosDevice
  deriving DecidableEq, Repr

/-- A pointer to a `resourceId`. -/
inductive ResourcePtr where
  | sender (f : SourceFormat)
  | receiver (f : SourceFormat)
  deriving DecidableEq, Repr

/-- `MuxNmosResource`. -/
structure MuxNmosResource where
  uuid : Uuid
  node : Option NodePtr
  deriving DecidableEq

/-- `MuxNmosConstraints`. -/
structure MuxNmosConstraints where
  sourcePortMini : UInt16
  destPortMini : UInt16
  portRange : UInt16
  rtpEnabled : UInt8
  rtcpEnabled : UInt8
  fecEnabled : UInt8
  parent : Option ResourcePtr
  deriving DecidableEq

/-- `MuxNmosSender`. -/
structure MuxNmosSender where
  resourceId : MuxNmosResource
  constraints : MuxNmosConstraints
  device : Option DevicePtr
  flow : Option SourceFormat
  subscriber : Option SourceFormat
  enabled : UInt8
  deriving DecidableEq

/-- `MuxNmosReceiver`. -/
structure MuxNmosReceiver where
  resourceId : MuxNmosResource
  format : SourceFormat
  constraints : MuxNmosConstraints
  device : Option DevicePtr
  subscriber : Option SourceFormat
  deriving DecidableEq

/-- `NMOS_VIDEO_CS_T`. -/
inductive ColorSpace where
  | bt601
  | bt709
  | bt2022
  | bt2100
  deriving DecidableEq, Repr

/-- `NMOS_VIDEO_TC_T`. -/
inductive TransferCharacter where
  | sdr
  | hlg
  | pq
  deriving DecidableEq, Repr

/-- `MuxNmosFlow`. -/
structure MuxNmosFlow where
  resourceId : MuxNmosResource
  format : SourceFormat
  colorspace : ColorSpace
  frameWidth : UInt16
  frameHeight : UInt16
  transferCharacter : TransferCharacter
  sampleRate : UInt16
  bitDepth : UInt16
  source : Option SourceFormat
  deriving DecidableEq

/-- `MuxNmosSource`. -/
structure MuxNmosSource where
  resourceId : MuxNmosResource
  flow : Option SourceFormat
  device : Option DevicePtr
  format : SourceFormat
  gRate : UInt16
  deriving DecidableEq

/-- `MuxNmosDevice`. -/
structure MuxNmosDevice where
  resourceId : MuxNmosResource
  senders : List SourceFormat
  receivers : List SourceFormat
  flows : List SourceFormat
  sources : List SourceFormat
  node : Option NodePtr
  deriving DecidableEq

/-- `MuxNmosNode`. -/
structure MuxNmosNode where
  resourceId : MuxNmosResource
  device : Option DevicePtr
  runCfg : Option Cmd.RuntimeCfg
  deriving DecidableEq

/-- The static variables. One that has not been written is all zeros. -/
structure Objects where
  node : MuxNmosNode
  device : MuxNmosDevice
  sender : SourceFormat → MuxNmosSender
  receiver : SourceFormat → MuxNmosReceiver
  flow : SourceFormat → MuxNmosFlow
  source : SourceFormat → MuxNmosSource

/-- The identifiers that `extNmosIdGenerate` makes. -/
structure Ids where
  node : Uuid
  device : Uuid
  sender : SourceFormat → Uuid
  receiver : SourceFormat → Uuid
  flow : SourceFormat → Uuid
  source : SourceFormat → Uuid

/-- `EXT_MEDIA_PORT_RANGE`. -/
def mediaPortRange : UInt16 := 10

/-- Constraints of zeros. -/
def MuxNmosConstraints.zero : MuxNmosConstraints := ⟨0, 0, 0, 0, 0, 0, none⟩

/-- A resource of zeros. -/
def MuxNmosResource.zero : MuxNmosResource := ⟨.zero, none⟩

/-- A sender of zeros. -/
def MuxNmosSender.zero : MuxNmosSender := ⟨.zero, .zero, none, none, none, 0⟩

/-- A receiver of zeros. -/
def MuxNmosReceiver.zero : MuxNmosReceiver := ⟨.zero, .video, .zero, none, none⟩

/-- A flow of zeros. -/
def MuxNmosFlow.zero : MuxNmosFlow := ⟨.zero, .video, .bt601, 0, 0, .sdr, 0, 0, none⟩

/-- A source of zeros. -/
def MuxNmosSource.zero : MuxNmosSource := ⟨.zero, none, none, .video, 0⟩

/-- `__extVideoSenderInit` and the two like it, with the ports of the format. -/
def senderInit (uuid : Uuid) (f : SourceFormat) (sourcePort destPort : UInt16) (m : Objects) :
    Objects :=
  { m with
    sender := Function.update m.sender f
      { MuxNmosSender.zero with
        resourceId := ⟨uuid, (m.flow f).resourceId.node⟩
        device := some .nmosDevice
        flow := some f
        enabled := 1
        constraints := { MuxNmosConstraints.zero with
          parent := some (.sender f)
          sourcePortMini := sourcePort
          destPortMini := destPort
          portRange := mediaPortRange } }
    device := { m.device with senders := f :: m.device.senders } }

def extVideoSenderInit (ids : Ids) (cfg : Cmd.RuntimeCfg) (m : Objects) : Objects :=
  senderInit (ids.sender .video) .video cfg.local.vport cfg.dest.vport m

def extAudioSenderInit (ids : Ids) (cfg : Cmd.RuntimeCfg) (m : Objects) : Objects :=
  senderInit (ids.sender .audio) .audio cfg.local.aport cfg.dest.aport m

def extDataSenderInit (ids : Ids) (cfg : Cmd.RuntimeCfg) (m : Objects) : Objects :=
  senderInit (ids.sender .data) .data cfg.local.dport cfg.dest.dport m

/-- What `__extVideoFlowInit` and the two like it do before they call for the sender. -/
def flowInit (uuid : Uuid) (f : SourceFormat) (flow : MuxNmosFlow) (m : Objects) : Objects :=
  { m with
    flow := Function.update m.flow f
      { flow with
        resourceId := ⟨uuid, (m.source f).resourceId.node⟩
        source := some f
        format := f }
    source := Function.update m.source f { m.source f with flow := some f } }

/-- `ADD_ELEMENT` of a flow. -/
def addFlow (f : SourceFormat) (m : Objects) : Objects :=
  { m with device := { m.device with flows := f :: m.device.flows } }

def extVideoFlowInit (ids : Ids) (cfg : Cmd.RuntimeCfg) (m : Objects) : Objects :=
  addFlow .video <| extVideoSenderInit ids cfg <| flowInit (ids.flow .video) .video
    { MuxNmosFlow.zero with
      colorspace := .bt2100
      frameWidth := 1080
      frameHeight := 720
      transferCharacter := .sdr } m

def extAudioFlowInit (ids : Ids) (cfg : Cmd.RuntimeCfg) (m : Objects) : Objects :=
  addFlow .audio <| extAudioSenderInit ids cfg <| flowInit (ids.flow .audio) .audio
    { MuxNmosFlow.zero with
      sampleRate := 48000
      bitDepth := 16 } m

def extDataFlowInit (ids : Ids) (cfg : Cmd.RuntimeCfg) (m : Objects) : Objects :=
  addFlow .data <| extDataSenderInit ids cfg <| flowInit (ids.flow .data) .data
    MuxNmosFlow.zero m

/-- What `__extVideoSourceInit` and the two like it do before they call for the flow. -/
def sourceInit (uuid : Uuid) (f : SourceFormat) (gRate : UInt16) (m : Objects) : Objects :=
  { m with
    source := Function.update m.source f
      { MuxNmosSource.zero with
        resourceId := ⟨uuid, m.device.resourceId.node⟩
        device := some .nmosDevice
        format := f
        gRate := gRate } }

/-- `ADD_ELEMENT` of a source. -/
def addSource (f : SourceFormat) (m : Objects) : Objects :=
  { m with device := { m.device with sources := f :: m.device.sources } }

def extVideoSourceInit (ids : Ids) (cfg : Cmd.RuntimeCfg) (m : Objects) : Objects :=
  extVideoFlowInit ids cfg <| addSource .video <| sourceInit (ids.source .video) .video 60 m

def extAudioSourceInit (ids : Ids) (cfg : Cmd.RuntimeCfg) (m : Objects) : Objects :=
  addSource .audio <| extAudioFlowInit ids cfg <| sourceInit (ids.source .audio) .audio 60 m

def extDataSourceInit (ids : Ids) (cfg : Cmd.RuntimeCfg) (m : Objects) : Objects :=
  addSource .data <| extDataFlowInit ids cfg <| sourceInit (ids.source .data) .data 0 m

/-- `_extNmosSourceInit`. -/
def extNmosSourceInit (ids : Ids) (cfg : Cmd.RuntimeCfg) (m : Objects) : Objects :=
  extDataSourceInit ids cfg <| extAudioSourceInit ids cfg <| extVideoSourceInit ids cfg m

/-- One of the three receivers of `_extNmosReceiversInit`. -/
def receiverInit (ids : Ids) (f : SourceFormat) (m : Objects) : Objects :=
  { m with
    receiver := Function.update m.receiver f
      { MuxNmosReceiver.zero with
        resourceId := ⟨ids.receiver f, m.device.resourceId.node⟩
        device := some .nmosDevice
        format := f
        constraints := { MuxNmosConstraints.zero with parent := some (.receiver f) } }
    device := { m.device with receivers := f :: m.device.receivers } }

/-- `_extNmosReceiversInit`. -/
def extNmosReceiversInit (ids : Ids) (m : Objects) : Objects :=
  receiverInit ids .data <| receiverInit ids .audio <| receiverInit ids .video m

/-- `extNmosNodeInit`, up to where the role is asked for. -/
def extNmosNodeStart (ids : Ids) (cfg : Cmd.RuntimeCfg) : Objects where
  node := ⟨⟨ids.node, some .nmosNode⟩, some .nmosDevice, some cfg⟩
  device := ⟨⟨ids.device, some .nmosNode⟩, [], [], [], [], some .nmosNode⟩
  sender _ := .zero
  receiver _ := .zero
  flow _ := .zero
  source _ := .zero

/-- `extNmosNodeInit`. -/
def extNmosNodeInit (ids : Ids) (cfg : Cmd.RuntimeCfg) : Objects :=
  let m := extNmosNodeStart ids cfg
  if cfg.isTransmitter then extNmosSourceInit ids cfg m else extNmosReceiversInit ids m

section Lists

variable (ids : Ids) (cfg : Cmd.RuntimeCfg)

/-- Only a node that receives has receivers. -/
theorem receivers_extNmosNodeInit :
    (extNmosNodeInit ids cfg).device.receivers =
      if cfg.isTransmitter then [] else [.data, .audio, .video] := by
  unfold extNmosNodeInit
  dsimp only
  split
  · rfl
  · rfl

/-- Only a node that transmits has senders. -/
theorem senders_extNmosNodeInit :
    (extNmosNodeInit ids cfg).device.senders =
      if cfg.isTransmitter then [.data, .audio, .video] else [] := by
  unfold extNmosNodeInit
  dsimp only
  split
  · rfl
  · rfl

/-- The pointers that the handlers follow from a sender. -/
structure SenderWired (m : Objects) (f : SourceFormat) : Prop where
  device : (m.sender f).device = some .nmosDevice
  flow : (m.sender f).flow = some f
  source : (m.flow f).source = some f
  parent : (m.sender f).constraints.parent = some (.sender f)
  node : (m.sender f).resourceId.node = some .nmosNode
  subscriber : (m.sender f).subscriber = none

/-- The pointers that the handlers follow from a receiver. -/
structure ReceiverWired (m : Objects) (f : SourceFormat) : Prop where
  device : (m.receiver f).device = some .nmosDevice
  parent : (m.receiver f).constraints.parent = some (.receiver f)
  node : (m.receiver f).resourceId.node = some .nmosNode
  subscriber : (m.receiver f).subscriber = none

/-- The pointers of the node, and of the objects in the lists. -/
structure Wired (m : Objects) (cfg : Cmd.RuntimeCfg) : Prop where
  device : m.node.device = some .nmosDevice
  node : m.device.node = some .nmosNode
  runCfg : m.node.runCfg = some cfg
  senders : ∀ f ∈ m.device.senders, SenderWired m f
  receivers : ∀ f ∈ m.device.receivers, ReceiverWired m f

theorem wired_extNmosNodeInit : Wired (extNmosNodeInit ids cfg) cfg := by
  have hsenders := senders_extNmosNodeInit ids cfg
  have hreceivers := receivers_extNmosNodeInit ids cfg
  unfold extNmosNodeInit at hsenders hreceivers ⊢
  dsimp only at hsenders hreceivers ⊢
  split
  next htx =>
    rw [if_pos htx, if_pos htx] at hsenders hreceivers
    refine ⟨rfl, rfl, rfl, fun f _ => ?_, fun f hf => ?_⟩
    · cases f with
      | video => exact ⟨rfl, rfl, rfl, rfl, rfl, rfl⟩
      | audio => exact ⟨rfl, rfl, rfl, rfl, rfl, rfl⟩
      | data => exact ⟨rfl, rfl, rfl, rfl, rfl, rfl⟩
    · rw [hreceivers] at hf
      exact absurd hf List.not_mem_nil
  next hrx =>
    rw [if_neg hrx, if_neg hrx] at hsenders hreceivers
    refine ⟨rfl, rfl, rfl, fun f hf => ?_, fun f _ => ?_⟩
    · rw [hsenders] at hf
      exact absurd hf List.not_mem_nil
    · cases f with
      | video => exact ⟨rfl, rfl, rfl, rfl⟩
      | audio => exact ⟨rfl, rfl, rfl, rfl⟩
      | data => exact ⟨rfl, rfl, rfl, rfl⟩

end Lists

end Nmos

end RtosLwip
