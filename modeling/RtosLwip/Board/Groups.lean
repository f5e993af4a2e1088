import RtosLwip.Board.Operation

/-!
# The Multicast Groups of a Receiver

A receiver joins the group that its destination stands for, and leaves it when the
destination changes. It does not keep track of whether it has joined: every time
that the FPGA is configured it joins once more, and so it does for every command to
connect, while a change of the destination leaves the group once. The stack counts
the uses. So after a start-up and a command to connect the group has two uses, and a
change of the destination leaves one behind that nothing takes away again.

What goes well is a change of the destination that finds no more than one use.

## Main definitions

* `Membership`: The only group is that of the destination, and it is joined while the
  receiver is connected.
* `Released`: A change of the destination finds no more than one use.
* `move`: Leave one group and join another.

## Theorems

* `member_step`: What one change keeps.
* `membership_of_released`: The groups after a start-up.
-/

namespace RtosLwip

namespace Board

open Cmd

/-- A group that can be joined. -/
def Joinable (g : UInt32) : Prop := isMulticast g = true ∧ g ≠ allsystems

instance (g : UInt32) : Decidable (Joinable g) := inferInstanceAs (Decidable (_ ∧ _))

/-- The only group is that of the destination, and after a command to connect it is
    joined. -/
structure Membership (b : Board) : Prop where
  only : ∀ g, 0 < b.uses g → g = b.cfg.dest.ip
  joined : b.connected = true → isMulticast b.cfg.dest.ip = true → 0 < b.uses b.cfg.dest.ip

/-- A destination that is about to take effect: the interface has an address, and
    another group than before finds no more than one use of that one. -/
def Releases (b : Board) (newIp : UInt32) : Prop :=
  b.cfg.netifIp ≠ 0 ∧ (newIp ≠ b.cfg.dest.ip → b.uses b.cfg.dest.ip ≤ 1)

/-- The last `isConnect` behind a command. -/
def connectedAfter (rx : RuntimeCfg) (b : Board) : Bool :=
  if rx.runtime.isConnect ≠ 0 then rx.runtime.isConnect - 1 ≠ 0 else b.connected

/-- Every change of the destination releases the old group. A connected receiver does
    not turn to the group of all systems, which can not be joined. -/
def Released (b : Board) : Change → Prop
  | .command datagram _ _ =>
      ∀ rx ∈ setupRequest b.dev datagram,
        (∀ newIp ∈ mergedDest rx b.cfg, Releases b newIp) ∧
          (connectedAfter rx b = true →
            (mergedDest rx b.cfg).getD b.cfg.dest.ip ≠ allsystems)
  | .period switches _ =>
      b.cfg.multicast = true → b.cfg.dipOn = true → dipAddress switches ≠ b.cfg.dest.ip →
        Releases b (dipAddress switches)
  | .startUp _ _ _ => True

instance (b : Board) (newIp : UInt32) : Decidable (Releases b newIp) :=
  inferInstanceAs (Decidable (_ ∧ (_ → _)))

-- only the address of the message is looked at, not every address there is
instance (b : Board) (o : Option UInt32) : Decidable (∀ newIp ∈ o, Releases b newIp) :=
  Option.decidableForallMem o

instance (b : Board) : ∀ c, Decidable (Released b c)
  | .command _ _ _ => inferInstanceAs (Decidable (∀ rx ∈ _, (∀ _ ∈ _, _) ∧ (_ → _)))
  | .period _ _ => inferInstanceAs (Decidable (_ → _ → _ → _))
  | .startUp _ _ _ => .isTrue trivial

section Uses

variable (uses : UInt32 → Nat)

theorem groupMgr_self {g : UInt32} (h : Joinable g) (isAdd : Bool) :
    extLwipGroupMgr g isAdd uses g = if isAdd then uses g + 1 else uses g - 1 := by
  unfold extLwipGroupMgr
  rw [if_pos ⟨h.1, h.2⟩, Function.update_self]

theorem groupMgr_of_ne {g k : UInt32} (h : k ≠ g) (isAdd : Bool) :
    extLwipGroupMgr g isAdd uses k = uses k := by
  unfold extLwipGroupMgr
  split
  · rw [Function.update_of_ne h]
  · rfl

theorem groupMgr_of_not_joinable {g : UInt32} (h : ¬ Joinable g) (isAdd : Bool) :
    extLwipGroupMgr g isAdd uses = uses :=
  if_neg h

/-- Leave one group and join another. -/
def move (old new : UInt32) : UInt32 → Nat :=
  extLwipGroupMgr new true (extLwipGroupMgr old false uses)

/-- Only groups that can be joined have uses, and no other than this one. -/
structure OnlyUses (g : UInt32) : Prop where
  only : ∀ k, 0 < uses k → k = g
  joinable : 0 < uses g → Joinable g

variable {uses}

theorem OnlyUses.of_ne {g : UInt32} (h : OnlyUses uses g) {k : UInt32} (hk : k ≠ g) :
    uses k = 0 := by
  by_contra hn
  exact hk (h.only k (Nat.pos_of_ne_zero hn))

/-- Joining or leaving the group itself concerns no other. -/
theorem OnlyUses.groupMgr {g : UInt32} (h : OnlyUses uses g) (isAdd : Bool) :
    OnlyUses (extLwipGroupMgr g isAdd uses) g := by
  by_cases hg : Joinable g
  · refine ⟨fun k hk => ?_, fun _ => hg⟩
    by_contra hne
    rw [groupMgr_of_ne _ hne, h.of_ne hne] at hk
    exact absurd hk (Nat.lt_irrefl 0)
  · rw [groupMgr_of_not_joinable _ hg]
    exact h

/-- With no more than one use, or without a change, a move leaves nothing behind. -/
theorem OnlyUses.move {old new : UInt32} (h : OnlyUses uses old)
    (hone : new ≠ old → uses old ≤ 1) : OnlyUses (move uses old new) new := by
  have hleft : ∀ k, k ≠ new → extLwipGroupMgr old false uses k = 0 := by
    intro k hk
    by_cases hold : k = old
    · subst hold
      by_cases hg : Joinable k
      · have hle := hone (Ne.symm hk)
        rw [groupMgr_self _ hg, if_neg Bool.false_ne_true]
        omega
      · rw [groupMgr_of_not_joinable _ hg]
        by_contra hn
        exact hg (h.joinable (Nat.pos_of_ne_zero hn))
    · rw [groupMgr_of_ne _ hold]
      exact h.of_ne hold
  refine ⟨fun k hk => ?_, fun hpos => ?_⟩
  · by_contra hne
    rw [Board.move, groupMgr_of_ne _ hne, hleft k hne] at hk
    exact absurd hk (Nat.lt_irrefl 0)
  · by_contra hg
    rw [Board.move, groupMgr_of_not_joinable _ hg] at hpos
    by_cases hsame : new = old
    · subst hsame
      rw [groupMgr_of_not_joinable _ hg] at hpos
      exact hg (h.joinable hpos)
    · rw [groupMgr_of_ne _ hsame, h.of_ne hsame] at hpos
      exact absurd hpos (Nat.lt_irrefl 0)

/-- There is a use of the group that was moved to. -/
theorem move_pos (uses : UInt32 → Nat) (old : UInt32) {new : UInt32} (h : Joinable new) :
    0 < move uses old new new := by
  rw [move, groupMgr_self _ h, if_pos rfl]
  exact Nat.succ_pos _

theorem move_le_one {old new : UInt32} (h : OnlyUses uses old) (hone : uses old ≤ 1) :
    move uses old new new ≤ 1 := by
  have hleft : extLwipGroupMgr old false uses new = 0 ∨ ¬ Joinable new := by
    by_cases hg : Joinable new
    · left
      by_cases hsame : new = old
      · subst hsame
        rw [groupMgr_self _ hg, if_neg Bool.false_ne_true]
        omega
      · rw [groupMgr_of_ne _ hsame]
        exact h.of_ne hsame
    · exact Or.inr hg
  by_cases hg : Joinable new
  · rw [move, groupMgr_self _ hg, if_pos rfl, hleft.resolve_right (not_not.mpr hg)]
  · rw [move, groupMgr_of_not_joinable _ hg]
    by_cases hsame : new = old
    · subst hsame
      rw [groupMgr_of_not_joinable _ hg]
      exact hone
    · rw [groupMgr_of_ne _ hsame, h.of_ne hsame]
      exact Nat.zero_le 1

/-- A move to another group and back leaves the uses as they were, or makes one. -/
theorem OnlyUses.move_back {g other : UInt32} (h : OnlyUses uses g) (hne : other ≠ g) :
    OnlyUses (Board.move (Board.move uses g other) other g) g := by
  have hother : extLwipGroupMgr other false (Board.move uses g other) other = 0 := by
    by_cases ho : Joinable other
    · rw [groupMgr_self _ ho, if_neg Bool.false_ne_true, Board.move, groupMgr_self _ ho, if_pos rfl,
        groupMgr_of_ne _ hne, h.of_ne hne]
    · rw [groupMgr_of_not_joinable _ ho, Board.move, groupMgr_of_not_joinable _ ho,
        groupMgr_of_ne _ hne, h.of_ne hne]
  refine ⟨fun k hk => ?_, fun hpos => ?_⟩
  · by_contra hkg
    rw [Board.move, groupMgr_of_ne _ hkg] at hk
    by_cases hko : k = other
    · rw [hko, hother] at hk
      exact absurd hk (Nat.lt_irrefl 0)
    · rw [groupMgr_of_ne _ hko, Board.move, groupMgr_of_ne _ hko, groupMgr_of_ne _ hkg,
        h.of_ne hkg] at hk
      exact absurd hk (Nat.lt_irrefl 0)
  · by_contra hg
    rw [Board.move, groupMgr_of_not_joinable _ hg, groupMgr_of_ne _ (Ne.symm hne), Board.move,
      groupMgr_of_ne _ (Ne.symm hne), groupMgr_of_not_joinable _ hg] at hpos
    exact hg (h.joinable hpos)

end Uses

/-- What a change finds: a receiver, also in its flash, and only the group of its
    destination. -/
structure Member (b : Board) : Prop where
  rx : b.cfg.isTx = 0
  flash : b.flash.isTx = 0
  uses : OnlyUses b.uses b.cfg.dest.ip
  joined : b.connected = true → isMulticast b.cfg.dest.ip = true → 0 < b.uses b.cfg.dest.ip

theorem Member.membership {b : Board} (h : Member b) : Membership b := ⟨h.uses.only, h.joined⟩

/-- A new destination of a receiver moves it to another group. -/
theorem applyNewDest_uses {cfg : RuntimeCfg} (hrx : cfg.isTx = 0) (hip : cfg.netifIp ≠ 0)
    (old : UInt32) (b : Board) : (applyNewDest old cfg b).uses = move b.uses old cfg.dest.ip := by
  unfold applyNewDest extFpgaConfig RuntimeCfg.isTransmitter move
  by_cases hm : isMulticast cfg.dest.ip = true
  · simp [hrx, hip, hm]
  · simp [hrx, hm, groupMgr_of_not_joinable _ fun h : Joinable cfg.dest.ip => hm h.1]

/-- Behind a merge a receiver may join its group once more, and it connects or
    disconnects as the command says. -/
theorem finishMerge_uses (rx : RuntimeCfg) {run : RuntimeCfg} (hrx : run.isTx = 0) (b : Board) :
    ∃ again : Bool, (finishMerge rx run b).uses =
      let d := (compareAll rx run).cfg.dest.ip
      let uses := if again then extLwipGroupMgr d true b.uses else b.uses
      if rx.runtime.isConnect ≠ 0 then extLwipGroupMgr d (rx.runtime.isConnect - 1 ≠ 0) uses
      else uses := by
  have htx : (compareAll rx run).cfg.isTx = 0 := by
    rw [compareAll_cfg]
    exact hrx
  refine ⟨.protocol ∈ (compareAll rx run).types ∧
    isMulticast (compareAll rx run).cfg.dest.ip ∧ (compareAll rx run).cfg.netifIp ≠ 0, ?_⟩
  unfold finishMerge
  generalize compareAll rx run = s at htx
  -- only two of the parts have to do with groups
  have hsystem : ∀ b : Board, (((if .system ∈ s.types then [Effect.cfgSave] else []).map
      (s.cfg, ·)).foldl perform b).uses = b.uses := by
    intro b
    split <;> rfl
  have hrs232 : ∀ b : Board, (((if .rs232 ∈ s.types then [Effect.cfgSave, .rs232Config] else []).map
      (s.cfg, ·)).foldl perform b).uses = b.uses := by
    intro b
    split <;> rfl
  have hmedia : ∀ b : Board, (((if .media ∈ s.types then [Effect.fpgaConfigParams] else []).map
      (s.cfg, ·)).foldl perform b).uses = b.uses := by
    intro b
    split <;> rfl
  have hprotocol : ∀ b : Board, (((if .protocol ∈ s.types then [Effect.cfgSave, .fpgaConfig]
      else []).map (s.cfg, ·)).foldl perform b).uses =
        if .protocol ∈ s.types ∧ isMulticast s.cfg.dest.ip ∧ s.cfg.netifIp ≠ 0 then
          extLwipGroupMgr s.cfg.dest.ip true b.uses
        else b.uses := by
    intro b
    by_cases hp : .protocol ∈ s.types
    · simp [hp, perform, extFpgaConfig, RuntimeCfg.isTransmitter, htx]
    · simp [hp]
  have hconnect : ∀ b : Board, (((if rx.runtime.isConnect ≠ 0 then
      extCmdConnect s.cfg (rx.runtime.isConnect - 1)
        else []).map (s.cfg, ·)).foldl perform b).uses =
        if rx.runtime.isConnect ≠ 0 then
          extLwipGroupMgr s.cfg.dest.ip (rx.runtime.isConnect - 1 ≠ 0) b.uses
        else b.uses := by
    intro b
    unfold extCmdConnect RuntimeCfg.isTransmitter
    by_cases hgiven : rx.runtime.isConnect = 0
    · simp [hgiven]
    · by_cases hm : isMulticast s.cfg.dest.ip = true
      · simp [hgiven, htx, hm, perform]
      · simp [hgiven, htx, hm, groupMgr_of_not_joinable _ fun h : Joinable s.cfg.dest.ip => hm h.1]
  unfold setupEffects
  simp only [List.map_append, List.foldl_append]
  rw [hconnect, hmedia, hprotocol, hrs232, hsystem]
  simp only [decide_eq_true_eq]

theorem mergeDest_uses {rx run : RuntimeCfg} (hrx : run.isTx = 0)
    (hip : ∀ newIp ∈ mergedDest rx run, run.netifIp ≠ 0) (b : Board) :
    (mergeDest rx run b).uses =
      let d := (systemStage rx run).cfg.dest.ip
      let uses := if DipTurnedOff rx run.isDipOn then move b.uses run.dest.ip d else b.uses
      if DestGiven rx run then move uses d rx.dest.ip else uses := by
  have hsystem : ∀ b : Board, (if DipTurnedOff rx run.isDipOn then
      applyNewDest run.dest.ip (systemStage rx run).cfg b else b).uses =
        if DipTurnedOff rx run.isDipOn then
          move b.uses run.dest.ip (systemStage rx run).cfg.dest.ip
        else b.uses := by
    intro b
    by_cases hoff : DipTurnedOff rx run.isDipOn
    · have hsome : ∃ newIp, newIp ∈ mergedDest rx run := by
        unfold mergedDest
        rw [if_pos hoff]
        split <;> exact ⟨_, rfl⟩
      rw [if_pos hoff, if_pos hoff]
      exact applyNewDest_uses ((systemStage_isTx rx run).trans hrx)
        (systemStage_netifIp rx run ▸ hip _ hsome.choose_spec) _ b
    · rw [if_neg hoff, if_neg hoff]
  unfold mergeDest
  dsimp only
  by_cases hgiven : DestGiven rx run
  · have hdest : (multicastStage rx run).cfg.dest.ip = rx.dest.ip := by
      rw [multicastStage_dest]
      exact if_pos hgiven
    rw [if_pos hgiven, if_pos hgiven, ← hsystem, ← hdest]
    exact applyNewDest_uses ((multicastStage_isTx rx run).trans hrx)
      (multicastStage_netifIp rx run ▸ hip _ (if_pos hgiven)) _ _
  · rw [if_neg hgiven, if_neg hgiven, hsystem]

/-- The new destinations of a merge leave the last one, or the old one, as the only
    group. -/
theorem mergeDest_only {rx : RuntimeCfg} {b : Board} (hrx : b.cfg.isTx = 0)
    (h : OnlyUses b.uses b.cfg.dest.ip)
    (hrel : ∀ newIp ∈ mergedDest rx b.cfg, Releases b newIp) :
    let newIp := (mergedDest rx b.cfg).getD b.cfg.dest.ip
    OnlyUses (mergeDest rx b.cfg b).uses newIp ∧
      (mergedDest rx b.cfg ≠ none → Joinable newIp → 0 < (mergeDest rx b.cfg b).uses newIp) ∧
      (mergedDest rx b.cfg = none → (mergeDest rx b.cfg b).uses = b.uses) := by
  have huses := mergeDest_uses hrx (fun newIp hnew => (hrel newIp hnew).1) b
  rw [huses, systemStage_dest]
  unfold mergedDest at hrel ⊢
  dsimp only
  by_cases hgiven : DestGiven rx b.cfg
  · rw [if_pos hgiven] at hrel ⊢
    rw [if_pos hgiven, Option.getD_some]
    have hone := (hrel _ rfl).2
    refine ⟨?_, fun _ hg => move_pos _ _ hg, nofun⟩
    by_cases hoff : DipTurnedOff rx b.cfg.isDipOn
    · rw [if_pos hoff, if_pos hoff]
      by_cases hback : rx.dest.ip = b.cfg.dest.ip
      · -- by way of another address back to the old one
        rw [hback]
        exact h.move_back fun heq => hgiven.1.2 (hback.trans heq.symm)
      · have hle := hone hback
        exact (h.move fun _ => hle).move fun _ => move_le_one h hle
    · rw [if_neg hoff, if_neg hoff]
      exact h.move hone
  · rw [if_neg hgiven] at hrel ⊢
    rw [if_neg hgiven]
    by_cases hoff : DipTurnedOff rx b.cfg.isDipOn
    · rw [if_pos hoff] at hrel
      rw [if_pos hoff, if_pos hoff, if_pos hoff, Option.getD_some]
      exact ⟨h.move (hrel _ rfl).2, fun _ hg => move_pos _ _ hg, nofun⟩
    · rw [if_neg hoff, if_neg hoff, Option.getD_none]
      exact ⟨h, fun hn => absurd rfl hn, fun _ => rfl⟩

/-- What joins or leaves behind a merge concerns only the group of the destination. -/
theorem finishMerge_only {rx : RuntimeCfg} {run : RuntimeCfg} (hrx : run.isTx = 0) {b : Board}
    (h : OnlyUses b.uses (compareAll rx run).cfg.dest.ip) :
    OnlyUses (finishMerge rx run b).uses (compareAll rx run).cfg.dest.ip ∧
      (Joinable (compareAll rx run).cfg.dest.ip →
        (rx.runtime.isConnect ≠ 0 → rx.runtime.isConnect - 1 ≠ 0) →
          (rx.runtime.isConnect = 0 → 0 < b.uses (compareAll rx run).cfg.dest.ip) →
            0 < (finishMerge rx run b).uses (compareAll rx run).cfg.dest.ip) := by
  obtain ⟨again, huses⟩ := finishMerge_uses rx hrx b
  rw [huses]
  generalize (compareAll rx run).cfg.dest.ip = d at h
  dsimp only
  have hagain : OnlyUses (if again then extLwipGroupMgr d true b.uses else b.uses) d := by
    split
    · exact h.groupMgr true
    · exact h
  by_cases hgiven : rx.runtime.isConnect = 0
  · rw [if_neg (not_not.mpr hgiven)]
    refine ⟨hagain, fun hg _ hpos => ?_⟩
    split
    · rw [groupMgr_self _ hg, if_pos rfl]
      exact Nat.succ_pos _
    · exact hpos hgiven
  · rw [if_pos hgiven]
    refine ⟨hagain.groupMgr _, fun hg hconnect _ => ?_⟩
    rw [groupMgr_self _ hg, if_pos (decide_eq_true (hconnect hgiven))]
    exact Nat.succ_pos _

theorem joinable_dipAddress (switches : Fin 16) : Joinable (dipAddress switches) := by
  revert switches
  decide

/-- After a start-up a receiver has joined the group of its destination, or none. -/
theorem member_startUp (b : Board) {mac : MacAddress} {switches : Fin 16}
    (hflash : b.flash.isTx = 0) (address : UInt32) : Member (b.startUp mac switches address) := by
  have htx := (bspHwInit_isTx mac switches b.flash).trans hflash
  have hcfg := startUp_cfg b mac switches address
  have hnone : OnlyUses (fun _ => 0) (bspHwInit mac switches b.flash).dest.ip :=
    ⟨fun _ hk => absurd hk (Nat.lt_irrefl 0), fun hpos => absurd hpos (Nat.lt_irrefl 0)⟩
  have huses : (b.startUp mac switches address).uses =
      if isMulticast (bspHwInit mac switches b.flash).dest.ip ∧ address ≠ 0 then
        extLwipGroupMgr (bspHwInit mac switches b.flash).dest.ip true fun _ => 0
      else fun _ => 0 := by
    unfold startUp extFpgaConfig RuntimeCfg.isTransmitter
    simp [htx, bspHwInit_netifIp]
  have hconnected : (b.startUp mac switches address).connected = false := by
    unfold startUp extFpgaConfig
    dsimp only
    split <;> rfl
  refine ⟨?_, (startUp_flash b mac switches address).symm ▸ hflash, ?_, ?_⟩
  · rw [hcfg]
    exact htx
  · rw [hcfg, huses]
    split
    · exact hnone.groupMgr true
    · exact hnone
  · rw [hconnected]
    exact nofun

/-- A command keeps the groups in order. -/
theorem member_command {b : Board} (h : Member b) (datagram : List UInt8) (ip : UInt32)
    (port : UInt16) (hrel : Released b (.command datagram ip port)) :
    Member (b.command datagram ip port) := by
  have hflash := command_flash b ip port datagram
  cases hrequest : setupRequest b.dev datagram with
  | none =>
      obtain ⟨ip', port', hcfg⟩ := command_cfg_of_none b ip port hrequest
      have hsame : b.command datagram ip port =
          { b with dev := (extUdpCmdThread b.dev datagram ip port).1 } := by
        rw [command, hrequest]
      have huses : (b.command datagram ip port).uses = b.uses := by rw [hsame]
      have hconnected : (b.command datagram ip port).connected = b.connected := by rw [hsame]
      have hkept : (b.command datagram ip port).flash = b.flash := by rw [hsame]
      refine ⟨?_, hkept ▸ h.flash, ?_, ?_⟩
      · rw [hcfg]
        exact h.rx
      · rw [hcfg, huses]
        exact h.uses
      · rw [hcfg, huses, hconnected]
        exact h.joined
  | some rx =>
      obtain ⟨hreleases, hsystems⟩ := hrel rx hrequest
      have hcfg := command_cfg_of_request b ip port hrequest
      have htx : (compareAll rx b.cfg).cfg.isTx = 0 := by
        rw [compareAll_cfg]
        exact h.rx
      have huses : (b.command datagram ip port).uses =
          (finishMerge rx b.cfg (mergeDest rx b.cfg b)).uses := by
        rw [← foldl_mergeTrace, command, hrequest]
      have hconnected : (b.command datagram ip port).connected = connectedAfter rx b := by
        rw [command, hrequest]
        rfl
      obtain ⟨hmoved, hnew, hsame⟩ := mergeDest_only h.rx h.uses hreleases
      rw [← compareAll_dest_ip] at hmoved hnew hsystems
      obtain ⟨honly, hpos⟩ := finishMerge_only h.rx hmoved
      refine ⟨?_, ?_, ?_, ?_⟩
      · rw [hcfg]
        exact htx
      · rcases hflash with hkept | hsaved
        · rw [hkept]
          exact h.flash
        · rw [hsaved, hcfg]
          exact htx
      · rw [hcfg, huses]
        exact honly
      · rw [hcfg, huses, hconnected]
        intro hafter hmulticast
        have hg : Joinable (compareAll rx b.cfg).cfg.dest.ip := ⟨hmulticast, hsystems hafter⟩
        unfold connectedAfter at hafter
        by_cases hgiven : rx.runtime.isConnect = 0
        · rw [if_neg (not_not.mpr hgiven)] at hafter
          refine hpos hg (fun hn => absurd hgiven hn) fun _ => ?_
          by_cases hnone : mergedDest rx b.cfg = none
          · -- still the group that was joined before
            have hdest := compareAll_dest_ip rx b.cfg
            rw [hnone, Option.getD_none] at hdest
            rw [hsame hnone, hdest]
            exact h.joined hafter (hdest ▸ hmulticast)
          · exact hnew hnone hg
        · rw [if_pos hgiven] at hafter
          exact hpos hg (fun _ => decide_eq_true_iff.mp hafter) fun hn => absurd hn hgiven

/-- Every change that releases the old group keeps the groups in order. -/
theorem member_step (b : Board) (c : Change) (h : Member b) (hrel : Released b c) :
    Member (b.step c) := by
  cases c with
  | command datagram ip port => exact member_command h datagram ip port hrel
  | period switches runtime =>
      change Member (b.periodJobCallback switches runtime)
      have hflash := period_flash b switches runtime
      have hcfg := period_cfg b switches runtime
      by_cases hdip : b.cfg.multicast ∧ b.cfg.dipOn ∧ dipAddress switches ≠ b.cfg.dest.ip
      · obtain ⟨hip, hone⟩ := hrel hdip.1 hdip.2.1 hdip.2.2
        have hboard : b.periodJobCallback switches runtime =
            (b.newDestIpEffective (dipAddress switches)).setCfg
              { (b.newDestIpEffective (dipAddress switches)).cfg with runtime } := by
          unfold periodJobCallback
          rw [if_pos hdip]
        have huses : (b.periodJobCallback switches runtime).uses =
            move b.uses b.cfg.dest.ip (dipAddress switches) := by
          have hrx : (destined (dipAddress switches) b.cfg).isTx = 0 := h.rx
          have hup : (destined (dipAddress switches) b.cfg).netifIp ≠ 0 := hip
          rw [hboard, newDestIpEffective_eq]
          exact applyNewDest_uses hrx hup _ b
        rw [if_pos hdip] at hcfg
        refine ⟨?_, hflash ▸ h.flash, ?_, ?_⟩
        · rw [hcfg]
          exact h.rx
        · rw [hcfg, huses]
          exact h.uses.move hone
        · rw [hcfg, huses]
          exact fun _ _ => move_pos _ _ (joinable_dipAddress switches)
      · have hboard : b.periodJobCallback switches runtime =
            b.setCfg { b.cfg with runtime } := by
          unfold periodJobCallback
          rw [if_neg hdip]
        rw [hboard]
        exact ⟨h.rx, h.flash, h.uses, h.joined⟩
  | startUp mac switches address =>
      change Member (b.startUp mac switches address)
      exact member_startUp b h.flash address

/-- From a start-up on the only group of a receiver is that of its destination, and it is
    joined while the receiver is connected, if every change of the destination releases
    the old group. -/
theorem membership_of_released (b : Board) (hrx : b.flash.isTx = 0) (mac : MacAddress)
    (switches : Fin 16) (address : UInt32) (cs : List Change)
    (h : Meets step Released (b.startUp mac switches address) cs) :
    ∀ past, past <+: cs → Membership (run step (b.startUp mac switches address) past) := by
  rintro past ⟨rest, rfl⟩
  have hpast := ((meets_append _ _ _).mp h).1
  exact (meets_invariant member_step _ (member_startUp b hrx address) past hpast).membership

/-- A `set_param` command to connect or disconnect a receiver with factory settings. -/
def setConnect (value : String) : List UInt8 := extIpCmdResponseTailCalculate
  (ascii "\x7b\"targ\":\"02:00:00:00:00:01\",\"cmd\":\"set_param\",\"login-ack\":\"admin\"," ++
    ascii "\"pwd-msg\":\"admin\",\"data\":[\x7b\"IsConnect\":" ++ ascii value ++
      ascii "\x7d]") true

theorem one_lt_sixteen : 1 < 16 := by decide

/-- A receiver with factory settings that has started up, with the DIP switches at 1. -/
def receiver : Board := (factory 0).startUp #v[2, 0, 0, 0, 0, 1] ⟨1, one_lt_sixteen⟩ 0xC0A8A941

/-- It connects and disconnects, and then the DIP switches are set to 2. -/
theorem membership_of_released_dipSwitch : Membership (run step receiver
    [.command (setConnect "1") 0xC0A8A80A 5000, .command (setConnect "0") 0xC0A8A80A 5000,
      .period 2 RuntimeCfg.zero.runtime]) :=
  membership_of_released (factory 0) (by decide) _ _ _ _ (by decide +kernel) _ (List.prefix_refl _)

/-- It connects, and then the DIP switches are set to 2: the old group stays joined. -/
theorem not_membership_connected : ¬ Membership (run step receiver
    [.command (setConnect "1") 0xC0A8A80A 5000, .period 2 RuntimeCfg.zero.runtime]) := by
  intro h
  exact absurd (h.only 0xEF640101 (by decide +kernel)) (by decide +kernel)

end Board

end RtosLwip
