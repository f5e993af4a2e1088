import RtosLwip.Base.Run
import RtosLwip.Mdns.Query
import RtosLwip.Mdns.Records

/-!
# What the Client Learns from Answers

With `_MDNS_CLIENT_DEBUG` at 0 the owner of a record never gets into `domainName`, which is
cleared when a packet comes in. So no PTR record is found to be about a service, and
without one no SRV and no TXT record is looked at. The client keeps out of harm this way,
whatever comes in, and it never learns anything of a service.

## Main definitions

* `Unnamed`, `Cleared`: Nothing is known of the services, and of the owner of a record.
* `NulTerminated`: The texts of the client end inside their arrays.
* `Names`, `Response`: The names of a packet, and a response about an instance.
* `Stored`: The client knows what the response says.

## Theorems

* `parseAnswers_cleared`: The records of a packet leave the services unknown.
* `mdnsClientInit_unnamed`: So does the start.
* `answers_safe`: No packet makes the client go wrong.
* `not_stored`: No response is stored.
-/

namespace RtosLwip

namespace Mdns

/-- Neither a name nor a host name is known. -/
structure Unnamed (c : MdnsClient) : Prop where
  name : ∀ i, IsText (c.get i).name.toList []
  hostname : ∀ i, IsText (c.get i).hostname.toList []

/-- Nor has the owner of a record been looked at. -/
structure Cleared (c : MdnsClient) : Prop extends Unnamed c where
  domainName : IsText c.domainName.toList []

/-- `domainName` and the arrays of the interfaces hold texts that end inside of them. -/
structure NulTerminated (c : MdnsClient) : Prop where
  domainName : 0 ∈ c.domainName.toList
  name : ∀ i, 0 ∈ (c.get i).name.toList
  hostname : ∀ i, 0 ∈ (c.get i).hostname.toList

theorem Unnamed.nulTerminated {c : MdnsClient} (h : Unnamed c) (hdomain : 0 ∈ c.domainName.toList) :
    NulTerminated c :=
  ⟨hdomain, fun i => (h.name i).1, fun i => (h.hostname i).1⟩

@[simp] theorem MdnsClient.get_set_self (c : MdnsClient) (i : ApiIf) (x : NmosApiInterface) :
    (c.set i x).get i = x := by
  cases i with
  | registrationApi => rfl
  | queryApi => rfl

theorem MdnsClient.get_set_ne (c : MdnsClient) {i j : ApiIf} (h : j ≠ i) (x : NmosApiInterface) :
    (c.set i x).get j = c.get j := by
  cases i with
  | registrationApi => cases j with
    | registrationApi => exact absurd rfl h
    | queryApi => rfl
  | queryApi => cases j with
    | registrationApi => rfl
    | queryApi => exact absurd rfl h

@[simp] theorem MdnsClient.set_domainName (c : MdnsClient) (i : ApiIf) (x : NmosApiInterface) :
    (c.set i x).domainName = c.domainName := by
  cases i with
  | registrationApi => rfl
  | queryApi => rfl

/-- The array that has been cleared holds the empty text. -/
theorem isText_replicate {n : Nat} (h : 0 < n) :
    IsText (Vector.replicate n (0 : UInt8)).toList [] := by
  rw [Vector.toList_replicate]
  rcases Nat.exists_eq_succ_of_ne_zero h.ne' with ⟨m, rfl⟩
  exact ⟨List.mem_cons_self, rfl⟩

/-- An interface with its texts as before leaves the client as it was in this respect. -/
theorem Cleared.set {c : MdnsClient} (h : Cleared c) (i : ApiIf) {x : NmosApiInterface}
    (hname : IsText x.name.toList []) (hhost : IsText x.hostname.toList []) :
    Cleared (c.set i x) := by
  refine ⟨⟨fun j => ?_, fun j => ?_⟩, ?_⟩
  · by_cases hj : j = i
    · rw [hj, MdnsClient.get_set_self]
      exact hname
    · rw [MdnsClient.get_set_ne c hj]
      exact h.name j
  · by_cases hj : j = i
    · rw [hj, MdnsClient.get_set_self]
      exact hhost
    · rw [MdnsClient.get_set_ne c hj]
      exact h.hostname j
  · rw [MdnsClient.set_domainName]
    exact h.domainName

section Packets

variable (k : Copiers) (net : Sending) (pkt : MdnsPacket)

/-- Without a name there is no service in it. -/
theorem contains_of_empty {n : Nat} {a : Buf n} (h : IsText a.toList []) {part : List UInt8}
    (hpart : part ≠ []) : contains a part = some false := by
  have hnone : memmem part [] = none := by
    rw [memmem_eq_none_iff, List.infix_nil]
    exact hpart
  rw [contains, Buf.text_eq_some_iff.mpr h, Option.bind_eq_bind, Option.bind_some, hnone]
  rfl

theorem mdnsFindApiIfFromAnswer_cleared {c : MdnsClient} (h : Cleared c) :
    mdnsFindApiIfFromAnswer c = some none := by
  have hfirst : contains c.domainName typeRegistration = some false :=
    contains_of_empty h.domainName (by decide)
  have hsecond : contains c.domainName typeQuery = some false :=
    contains_of_empty h.domainName (by decide)
  rw [mdnsFindApiIfFromAnswer, hfirst, hsecond]
  rfl

/-- An A record of four bytes is taken for that of the registration service, whose host name
    is as empty as the name of the owner. -/
theorem mdnsClientDnsParseRRA_cleared {c : MdnsClient} (h : Cleared c) (ans : MdnsAnswer) :
    ∃ c', mdnsClientDnsParseRRA c ans = some (exitSuccess, c') ∧ Cleared c' := by
  have hdomain := Buf.text_eq_some_iff.mpr h.domainName
  have hhost := Buf.text_eq_some_iff.mpr (h.hostname .registrationApi)
  have hfound : findHost c = some (some .registrationApi) := by
    have hregistration : c.registrationApi.hostname.text = some [] := hhost
    rw [findHost, isStringEqual, hdomain, hregistration]
    rfl
  unfold mdnsClientDnsParseRRA
  simp only [hfound, hdomain, hhost, Option.bind_eq_bind, Option.bind_some, Option.pure_def]
  split
  · exact ⟨_, rfl, h.set _ (h.name _) (h.hostname _)⟩
  · exact ⟨_, rfl, h⟩

/-- What a round comes to leaves the services unknown. -/
inductive Silent : Round → Prop where
  | done (ret : Int8) {c : MdnsClient} (h : Cleared c) : Silent (.done ret c)
  | next {c : MdnsClient} (h : Cleared c) (ret : Int8) : Silent (.next c none ret)

theorem parseRecord_cleared {c : MdnsClient} (h : Cleared c) (ret : Int8) (ans : MdnsAnswer) :
    ∃ r, parseRecord k net pkt c none ret ans = some r ∧ Silent r := by
  unfold parseRecord
  split
  next =>
    rcases mdnsClientDnsParseRRA_cleared h ans with ⟨c', hparse, hc'⟩
    rw [hparse]
    exact ⟨_, rfl, .next hc' _⟩
  next =>
    split
    next =>
      rw [parsePtr, mdnsFindApiIfFromAnswer_cleared h]
      exact ⟨_, rfl, .done _ h⟩
    next =>
      -- the handlers for SRV and TXT records are given no interface
      split
      next => exact ⟨_, rfl, .next h _⟩
      next =>
        split
        next => exact ⟨_, rfl, .next h _⟩
        next => exact ⟨_, rfl, .next h _⟩

theorem readRecord_cleared {c : MdnsClient} (h : Cleared c) (ret : Int8) (ans : MdnsAnswer) :
    ∃ r, readRecord k net pkt c none ret ans = some r ∧ Silent r := by
  unfold readRecord
  split
  next => exact ⟨_, rfl, .done _ h⟩
  next hlength =>
    generalize hcopied : (pkt.pbuf.drop ans.rdOffset.toNat).take ans.rdLength.toNat = copied
    have hroom : 0 + copied.length ≤ domainMaxLen := by
      have hle := List.length_take_le ans.rdLength.toNat (pkt.pbuf.drop ans.rdOffset.toNat)
      rw [hcopied] at hle
      omega
    rcases Buf.exists_write c.rdata hroom with ⟨rdata, hwrite, -⟩
    have hrdata : Cleared { c with rdata := rdata } := ⟨⟨h.name, h.hostname⟩, h.domainName⟩
    dsimp only
    rw [hwrite, Option.bind_some]
    split
    next => exact ⟨_, rfl, .done _ hrdata⟩
    next =>
      split
      next => exact ⟨_, rfl, .done _ hrdata⟩
      next => exact parseRecord_cleared k net pkt hrdata ret ans

/-- The records of a packet are read to the end, or up to one that ends the loop, and leave
    the services unknown, whatever the copiers would do. -/
theorem parseAnswers_cleared {c : MdnsClient} (h : Cleared c) (ret : Int8)
    (answers : List (Option MdnsAnswer)) :
    ∃ ret' c', parseAnswers k false net pkt c none ret answers = some (ret', c') ∧
      Cleared c' := by
  induction answers generalizing c ret with
  | nil => exact ⟨ret, c, rfl, h⟩
  | cons answer rest ih =>
      cases answer with
      | none => exact ⟨ret, c, rfl, h⟩
      | some ans =>
          rcases readRecord_cleared k net pkt h ret ans with ⟨r, hread, hr⟩
          have howner : ownerName k false c ans = some c := rfl
          rw [parseAnswers, howner, Option.bind_some, hread]
          cases hr with
          | done ret' h' => exact ⟨ret', _, rfl, h'⟩
          | next h' ret' => exact ih h' ret'

/-- A packet leaves the services unknown. -/
theorem parseAnswer_unnamed {c : MdnsClient} (h : Unnamed c) :
    ∃ ret c', parseAnswer k false net c pkt = some (ret, c') ∧ Cleared c' := by
  have hclear : Cleared { c with domainName := Vector.replicate _ 0 } :=
    ⟨⟨h.name, h.hostname⟩, isText_replicate (by decide)⟩
  exact parseAnswers_cleared k net pkt hclear _ _

end Packets

section Start

variable (net : Sending)

/-- The labels of the service that an interface asks for. -/
def serviceLabels : ApiIf → List (List UInt8)
  | .registrationApi => [ascii "_nmos-registration", ascii "_tcp", ascii "local"]
  | .queryApi => [ascii "_nmos-query", ascii "_tcp", ascii "local"]

/-- The type of an interface. -/
def apiTypeOf : ApiIf → NmosApiType
  | .registrationApi => .registration
  | .queryApi => .query

theorem serviceOf_apiTypeOf (i : ApiIf) :
    serviceOf (apiTypeOf i) = some (dotted (serviceLabels i)) := by
  cases i with
  | registrationApi => rfl
  | queryApi => rfl

theorem isLabel_of_mem_serviceLabels (i : ApiIf) : ∀ l ∈ serviceLabels i, IsLabel l := by
  have hall : (serviceLabels i).all fun l =>
      1 ≤ l.length && l.length ≤ 63 && l.all fun c => c ≠ 46 && c ≠ 0 := by
    cases i with
    | registrationApi => decide
    | queryApi => decide
  intro l hl
  have h := List.all_eq_true.mp hall l hl
  simp only [Bool.and_eq_true, decide_eq_true_eq, List.all_eq_true] at h
  exact ⟨h.1.1, h.1.2, h.2⟩

/-- Asking for the service of an interface clears it, and leaves the other one alone. -/
theorem exists_initQuery {c : MdnsClient} {i : ApiIf} (htype : (c.get i).type = apiTypeOf i) :
    ∃ ret c', mdnsClientInitQueryForInterface net c i = some (ret, c') ∧
      0 ∈ c'.domainName.toList ∧
      IsText (c'.get i).name.toList [] ∧ IsText (c'.get i).hostname.toList [] ∧
      ∀ j, j ≠ i → c'.get j = c.get j := by
  have hcleared : IsText (Vector.replicate nameSize (0 : UInt8)).toList [] :=
    isText_replicate (by decide)
  have hroom : 0 + (dotted (serviceLabels i) ++ [0]).length ≤ domainMaxLen := by
    cases i with
    | registrationApi => decide
    | queryApi => decide
  have hlabels := isLabel_of_mem_serviceLabels i
  have hne : serviceLabels i ≠ [] := by
    cases i with
    | registrationApi => exact List.cons_ne_nil _ _
    | queryApi => exact List.cons_ne_nil _ _
  rcases Buf.exists_write c.domainName hroom with ⟨domainName, hwrite, hlist⟩
  generalize hc₁ : { c with domainName := domainName }.set i
    (askedInterface (apiTypeOf i) (dotted (serviceLabels i))) = c₁
  have hget : c₁.get i = askedInterface (apiTypeOf i) (dotted (serviceLabels i)) := by
    rw [← hc₁, MdnsClient.get_set_self]
  have hothers : ∀ j, j ≠ i → c₁.get j = c.get j := by
    intro j hj
    rw [← hc₁, MdnsClient.get_set_ne _ hj]
    cases j with
    | registrationApi => rfl
    | queryApi => rfl
  have hdomain : IsText c₁.domainName.toList (dotted (serviceLabels i)) := by
    rw [← hc₁, MdnsClient.set_domainName, hlist, List.take_zero, List.nil_append,
      List.append_assoc]
    exact isText_of_append fun b hb => ne_zero_of_mem_dotted hlabels hb
  have hsend : ∃ res c₂ p, mdnsClientSendQuery net c₁ (apiTypeOf i) = some (res, c₂, p) ∧
      c₂.domainName = c₁.domainName ∧ ∀ j, c₂.get j = c₁.get j := by
    have hquery : mdnsClientSendQuery net c₁ (apiTypeOf i) = sendQueryOf net c₁ (c₁.get i) := by
      cases i with
      | registrationApi => rfl
      | queryApi => rfl
    have hterminated : 0 ∈ (c₁.get i).hostname.toList := by
      rw [hget]
      exact hcleared.1
    rw [hquery, sendQueryOf_dotted net hterminated hne hlabels hdomain]
    dsimp only
    split
    · refine ⟨_, _, _, rfl, rfl, fun j => ?_⟩
      cases j with
      | registrationApi => rfl
      | queryApi => rfl
    · exact ⟨_, _, _, rfl, rfl, fun _ => rfl⟩
  rcases hsend with ⟨res, c₂, p, hquery, hsame, hkept⟩
  refine ⟨if res = 1 then exitFailure else exitSuccess, c₂, ?_, ?_, ?_, ?_,
    fun j hj => (hkept j).trans (hothers j hj)⟩
  · unfold mdnsClientInitQueryForInterface
    simp only [htype, serviceOf_apiTypeOf, hwrite, Option.bind_eq_bind, Option.bind_some, hc₁,
      hquery]
    rfl
  · rw [hsame]
    exact hdomain.1
  · rw [hkept, hget]
    exact hcleared
  · rw [hkept, hget]
    exact hcleared

/-- Behind the start nothing is known of the services. -/
theorem mdnsClientInit_unnamed (rand : UInt16) (c : MdnsClient) :
    ∃ ret c', mdnsClientInit net rand c = some (ret, c') ∧ 0 ∈ c'.domainName.toList ∧
      Unnamed c' := by
  have hfirst : ((c.started rand).get .registrationApi).type = .registration := rfl
  have hsecond : ((c.started rand).get .queryApi).type = .query := rfl
  rcases exists_initQuery net hfirst with ⟨ret₁, c₁, h₁, -, hname₁, hhost₁, hothers₁⟩
  rw [← hothers₁ .queryApi nofun] at hsecond
  rcases exists_initQuery net hsecond with ⟨ret₂, c₂, h₂, hdomain, hname₂, hhost₂, hothers₂⟩
  have hkept := hothers₂ .registrationApi nofun
  refine ⟨exitSuccess, c₂, ?_, hdomain, fun i => ?_, fun i => ?_⟩
  · unfold mdnsClientInit
    simp only [h₁, h₂, Option.bind_eq_bind, Option.bind_some]
    rfl
  · cases i with
    | registrationApi => rw [hkept]; exact hname₁
    | queryApi => exact hname₂
  · cases i with
    | registrationApi => rw [hkept]; exact hhost₁
    | queryApi => exact hhost₂

end Start

/-- Whatever packets come in behind the start, the client reads them to an end without an
    access outside of its arrays and without a call of a copier, so whatever the copiers
    would do, and its texts stay inside their arrays. -/
theorem answers_safe (k : Copiers) (net : Sending) (rand : UInt16) (c : MdnsClient)
    (packets : List (Sending × MdnsPacket)) :
    ∃ ret started c', mdnsClientInit net rand c = some (ret, started) ∧
      packets.foldlM (receive k false) started = some c' ∧ NulTerminated c' := by
  rcases mdnsClientInit_unnamed net rand c with ⟨ret, started, hinit, hdomain, hstarted⟩
  have hstep : ∀ (c : MdnsClient) (e : Sending × MdnsPacket),
      0 ∈ c.domainName.toList ∧ Unnamed c →
        ∃ c', receive k false c e = some c' ∧ 0 ∈ c'.domainName.toList ∧ Unnamed c' := by
    intro c e h
    rcases parseAnswer_unnamed k e.1 e.2 h.2 with ⟨ret, c', hparse, hc'⟩
    exact ⟨c', by rw [receive, hparse]; rfl, hc'.domainName.1, hc'.toUnnamed⟩
  rcases exists_runs hstep started ⟨hdomain, hstarted⟩ packets with ⟨c', hrun, hc'⟩
  exact ⟨ret, started, c', hinit, hrun, hc'.2.nulTerminated hc'.1⟩

/-- An array that begins with the bytes, and is empty behind them. -/
def bufOf {n : Nat} (bytes : List UInt8) : Buf n :=
  (Buf.write (Vector.replicate n 0) 0 bytes).getD (Vector.replicate n 0)

theorem prefix_bufOf {n : Nat} {bytes : List UInt8} (h : bytes.length ≤ n) :
    bytes <+: (bufOf bytes : Buf n).toList := by
  have hroom : 0 + bytes.length ≤ n := by omega
  rcases Buf.exists_write (Vector.replicate n 0) hroom with ⟨b, hwrite, hlist⟩
  rw [bufOf, hwrite, Option.getD_some, hlist, List.take_zero, List.nil_append]
  exact List.prefix_append _ _

/-- A TXT record with one text of 255 characters: its data takes all of `rdata`. -/
def longTxtPacket : MdnsPacket where
  pbuf := List.replicate 12 0 ++ 255 :: List.replicate 255 97
  answers := [some ⟨bufOf (wire (serviceLabels .registrationApi) ++ [0]), rrTypeTxt, rrClassIn,
    256, 12⟩]

/-- Behind that record `rdata` has no NUL. -/
theorem rdata_longTxtPacket :
    ((mdnsClientInit ⟨true, 0⟩ 7 askingClient).bind fun r =>
      mdnsClientParseAnswer false ⟨true, 0⟩ r.2 longTxtPacket).map
        (fun r => decide (0 ∈ r.2.rdata.toList)) = some false := by
  decide +kernel

/-- What some bytes of a packet stand for as a name, with labels and pointers. -/
inductive NameAt (pbuf : List UInt8) : List UInt8 → List (List UInt8) → Prop where
  | root : NameAt pbuf [0] []
  | label {l bytes : List UInt8} {labels : List (List UInt8)} (hpos : 1 ≤ l.length)
      (hle : l.length ≤ 63) (h : NameAt pbuf bytes labels) :
      NameAt pbuf (l.length.toUInt8 :: l ++ bytes) (l :: labels)
  | pointer {offset : Nat} {bytes : List UInt8} {labels : List (List UInt8)}
      (hlt : offset < 2 ^ 14) (hat : bytes <+: pbuf.drop offset) (h : NameAt pbuf bytes labels) :
      NameAt pbuf [(0xC0 + offset / 256).toUInt8, offset.toUInt8] labels

/-- Labels with their lengths, and the root behind them. -/
theorem nameAt_wire (pbuf : List UInt8) {labels : List (List UInt8)}
    (h : ∀ l ∈ labels, IsLabel l) : NameAt pbuf (wire labels ++ [0]) labels := by
  induction labels with
  | nil => exact .root
  | cons l rest ih =>
      have hl := h l List.mem_cons_self
      have hwire : wire (l :: rest) ++ [0] = l.length.toUInt8 :: l ++ (wire rest ++ [0]) := by
        simp only [wire, List.flatMap_cons, List.cons_append, List.append_assoc]
      rw [hwire]
      exact .label hl.pos hl.le (ih (List.forall_mem_of_forall_mem_cons h))

/-- An instance of a service, as its records tell of it. -/
structure Announced where
  label : List UInt8
  host : List (List UInt8)
  port : UInt16
  v10 : Bool
  v11 : Bool
  v12 : Bool
  priority : UInt8
  deriving DecidableEq, Repr

/-- The version flags that stand for the versions of the instance. -/
def Announced.versionFlags (a : Announced) : UInt8 :=
  (if a.v10 then 1 else 0) ||| (if a.v11 then 2 else 0) ||| (if a.v12 then 4 else 0)

/-- The texts of the TXT record. -/
def Announced.texts (a : Announced) : List (List UInt8) :=
  let versions := (if a.v10 then [ascii "v1.0"] else []) ++
    (if a.v11 then [ascii "v1.1"] else []) ++ (if a.v12 then [ascii "v1.2"] else [])
  [ascii "api_proto=http", ascii "api_ver=" ++ [44].intercalate versions,
    ascii "pri=" ++ dec a.priority.toNat]

/-- The data of a record. -/
def MdnsPacket.data (pkt : MdnsPacket) (ans : MdnsAnswer) : List UInt8 :=
  (pkt.pbuf.drop ans.rdOffset.toNat).take ans.rdLength.toNat

/-- A record of a type that some name owns. -/
structure Owned (ans : MdnsAnswer) (type : UInt16) (labels : List (List UInt8)) : Prop where
  type : ans.type = type
  owner : wire labels ++ [0] <+: ans.domain.toList

/-- A well formed response about an instance of the service `i`: the PTR record of the service,
    and behind it the SRV and the TXT record of the instance, with any others between. -/
structure Response (pkt : MdnsPacket) (i : ApiIf) (a : Announced) : Prop where
  readable : ∀ r ∈ pkt.answers, ∃ ans, r = some ans ∧ ans.klass = rrClassIn ∧
    ans.rdOffset.toNat + ans.rdLength.toNat ≤ pkt.pbuf.length
  records : ∃ ptr srv txt,
    ([some ptr, some srv, some txt].Sublist pkt.answers ∨
      [some ptr, some txt, some srv].Sublist pkt.answers) ∧
    Owned ptr rrTypePtr (serviceLabels i) ∧
    NameAt pkt.pbuf (pkt.data ptr) (a.label :: serviceLabels i) ∧
    Owned srv rrTypeSrv (a.label :: serviceLabels i) ∧
    (∃ priority weight name,
      pkt.data srv = netBytes priority ++ netBytes weight ++ netBytes a.port ++ name ∧
      NameAt pkt.pbuf name a.host) ∧
    Owned txt rrTypeTxt (a.label :: serviceLabels i) ∧
    ∃ texts, texts.Perm a.texts ∧ pkt.data txt = wire texts
  label : a.label ≠ []

/-- The interface holds what the response says of the instance. -/
structure Stored (c : MdnsClient) (i : ApiIf) (a : Announced) : Prop where
  name : IsText (c.get i).name.toList a.label
  port : (c.get i).port = a.port
  hostname : IsText (c.get i).hostname.toList (dotted a.host)
  protocol : (c.get i).protoFlags = 1
  versions : (c.get i).versionFlags = a.versionFlags
  priority : (c.get i).priority = a.priority

/-- No response is stored whatever `_MDNS_CLIENT_DEBUG` is: not where it is 0. -/
theorem not_stored (net : Sending) (rand : UInt16) (c : MdnsClient)
    (packets : List (Sending × MdnsPacket)) (i : ApiIf) (a : Announced) (pkt : MdnsPacket)
    (h : Response pkt i a) :
    ¬ ∀ debug, ∃ ret started before ret' c',
      mdnsClientInit net rand c = some (ret, started) ∧
        packets.foldlM (receive copiers debug) started = some before ∧
        mdnsClientParseAnswer debug net before pkt = some (ret', c') ∧ Stored c' i a := by
  intro hall
  rcases hall false with ⟨ret, started, before, ret', c', hinit, hrun, hparse, hstored⟩
  rcases mdnsClientInit_unnamed net rand c with ⟨ret₁, started₁, hinit₁, -, hstarted⟩
  rw [hinit, Option.some.injEq, Prod.mk.injEq] at hinit₁
  rw [← hinit₁.2] at hstarted
  have hstep : ∀ (c : MdnsClient) (e : Sending × MdnsPacket), Unnamed c →
      ∃ c', receive copiers false c e = some c' ∧ Unnamed c' := by
    intro c e hc
    rcases parseAnswer_unnamed copiers e.1 e.2 hc with ⟨ret, c', hparse, hc'⟩
    exact ⟨c', by rw [receive, hparse]; rfl, hc'.toUnnamed⟩
  rcases exists_runs hstep started hstarted packets with ⟨before₁, hrun₁, hbefore⟩
  rw [hrun, Option.some.injEq] at hrun₁
  rw [← hrun₁] at hbefore
  rcases parseAnswer_unnamed copiers net pkt hbefore with ⟨ret₂, c₂, hparse₂, hc₂⟩
  rw [mdnsClientParseAnswer, hparse₂, Option.some.injEq, Prod.mk.injEq] at hparse
  -- the name of the interface is still the empty text
  have hname := hc₂.name i
  rw [hparse.2] at hname
  exact h.label (hstored.name.2.symm.trans hname.2)

/-- The instance `i` at `h.local`, port 80. -/
def announcedI : Announced where
  label := [105]
  host := [[104], ascii "local"]
  port := 80
  v10 := true
  v11 := false
  v12 := true
  priority := 9

/-- The name of the instance. -/
def nameI : List (List UInt8) := [105] :: serviceLabels .registrationApi

/-- The data of its PTR, SRV and TXT records. -/
def dataI : List UInt8 × List UInt8 × List UInt8 :=
  (wire nameI ++ [0], netBytes 0 ++ netBytes 0 ++ netBytes 80 ++ (wire announcedI.host ++ [0]),
    wire announcedI.texts)

/-- Those records. -/
def recordsI : MdnsAnswer × MdnsAnswer × MdnsAnswer :=
  (⟨bufOf (wire (serviceLabels .registrationApi) ++ [0]), rrTypePtr, rrClassIn, 33, 12⟩,
    ⟨bufOf (wire nameI ++ [0]), rrTypeSrv, rrClassIn, 15, 45⟩,
    ⟨bufOf (wire nameI ++ [0]), rrTypeTxt, rrClassIn, 39, 60⟩)

/-- A response about it. -/
def responseI : MdnsPacket where
  pbuf := List.replicate 12 0 ++ dataI.1 ++ dataI.2.1 ++ dataI.2.2
  answers := [some recordsI.1, some recordsI.2.1, some recordsI.2.2]

theorem response_responseI : Response responseI .registrationApi announcedI := by
  have hlabels : ∀ l ∈ nameI, IsLabel l := by
    intro l hl
    rcases List.mem_cons.mp hl with rfl | hl
    · exact ⟨by decide, by decide, List.all_iff_forall_prop.mp (by decide)⟩
    · exact isLabel_of_mem_serviceLabels .registrationApi l hl
  have hhost : ∀ l ∈ announcedI.host, IsLabel l := by
    intro l hl
    rcases List.mem_pair.mp hl with rfl | rfl
    · exact ⟨by decide, by decide, List.all_iff_forall_prop.mp (by decide)⟩
    · exact isLabel_of_mem_serviceLabels .registrationApi _ (by decide)
  have hptr : responseI.data recordsI.1 = dataI.1 := by decide +kernel
  have hsrv : responseI.data recordsI.2.1 = dataI.2.1 := by decide +kernel
  have htxt : responseI.data recordsI.2.2 = dataI.2.2 := by decide +kernel
  refine ⟨fun r hr => ?_, ⟨recordsI.1, recordsI.2.1, recordsI.2.2, .inl (List.Sublist.refl _),
    ⟨rfl, prefix_bufOf (by decide)⟩, ?_, ⟨rfl, prefix_bufOf (by decide)⟩,
    ⟨0, 0, _, hsrv, nameAt_wire _ hhost⟩, ⟨rfl, prefix_bufOf (by decide)⟩,
    announcedI.texts, .refl _, htxt⟩, List.cons_ne_nil _ _⟩
  · simp only [responseI, List.mem_cons, List.not_mem_nil, or_false] at hr
    rcases hr with rfl | rfl | rfl
    · exact ⟨_, rfl, rfl, by decide +kernel⟩
    · exact ⟨_, rfl, rfl, by decide +kernel⟩
    · exact ⟨_, rfl, rfl, by decide +kernel⟩
  · rw [hptr]
    exact nameAt_wire _ hlabels

theorem not_stored_responseI :
    ¬ ∀ debug, ∃ ret started before ret' c',
      mdnsClientInit ⟨true, 0⟩ 7 askingClient = some (ret, started) ∧
        [].foldlM (receive copiers debug) started = some before ∧
        mdnsClientParseAnswer debug ⟨true, 0⟩ before responseI = some (ret', c') ∧
        Stored c' .registrationApi announcedI :=
  not_stored ⟨true, 0⟩ 7 askingClient [] .registrationApi announcedI responseI response_responseI

/-- The client after the start and that response. -/
def afterI (debug : Bool) : Option MdnsClient :=
  (mdnsClientInit ⟨true, 0⟩ 7 askingClient).bind fun r =>
    (mdnsClientParseAnswer debug ⟨true, 0⟩ r.2 responseI).map (·.2)

/-- With `_MDNS_CLIENT_DEBUG` at 0 the instance has no name, and with 1 its host has `.local`
    behind its name once more. -/
theorem stored_responseI :
    (afterI false).map (fun c => cstr c.registrationApi.name.toList) = some [] ∧
      (afterI true).map (fun c => cstr c.registrationApi.name.toList) = some [105] ∧
      (afterI true).map (fun c => cstr c.registrationApi.hostname.toList) =
        some (ascii "h.local.local") := by
  decide +kernel

end Mdns

end RtosLwip
