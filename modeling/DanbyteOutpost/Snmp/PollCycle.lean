import Mathlib.Tactic.NormNum
import DanbyteOutpost.Snmp.Fetch

/-!
# One result for each device

A poll has a result unless a stage raises something that is no `SnmpFactsError`, and then the cycle
has no result for any device. That is decided by the arguments of the stages, which are converted
outside their guards, and by `SnmpEngine()`.

## Guarded calls

A call is `Guarded` if what it raises is a `SnmpFactsError`. Guarded calls compose
(`guarded_bind`), and `catchFacts` makes a result of any of them; so what a poll needs are the
conversions that are not guarded, stage by stage, as far as the poll gets to the stage
(`Pollable`).

`snmpCycle_posts_iff` is exact: the cycle posts a result for each device if and only if its
interval converts and all devices are pollable. `nullPort_silences_cycle` is two devices, of which
one has a `null` for its port.
-/

namespace Snmp

variable {ι ν α β : Type}

/-! ### Guarded calls -/

/-- The call returns, or raises `SnmpFactsError`. -/
def Guarded (call : Except Raised α) : Prop := call ≠ .error .other

/-- A call is guarded if it ends well, or with the exception that is caught. -/
theorem guarded_iff {call : Except Raised α} :
    Guarded call ↔ (∃ a, call = .ok a) ∨ ∃ text, call = .error (.facts text) := by
  constructor
  · intro h
    match call, h with
    | .ok a, _ => exact .inl ⟨a, rfl⟩
    | .error (.facts text), _ => exact .inr ⟨text, rfl⟩
    | .error .other, h => exact absurd rfl h
  · rintro (⟨a, rfl⟩ | ⟨text, rfl⟩) h
    · cases h
    · cases h

@[simp]
theorem guarded_ok {a : α} : Guarded (.ok a) := by simp [Guarded]

@[simp]
theorem guarded_facts {text : String} : Guarded (.error (.facts text) : Except Raised α) := by
  simp [Guarded]

@[simp]
theorem not_guarded_other : ¬Guarded (.error .other : Except Raised α) := by simp [Guarded]

/-- Two parts are guarded if both are, the second where it comes to that. -/
@[simp]
theorem guarded_bind {x : Except Raised α} {f : α → Except Raised β} :
    Guarded (x >>= f) ↔ Guarded x ∧ ∀ a, x = .ok a → Guarded (f a) := by
  match x with
  | .ok a =>
    show Guarded (f a) ↔ _
    simp
  | .error e =>
    show Guarded (.error e) ↔ _
    simp [Guarded]

/-- What a stage brings: its value, or what its handler makes of a `SnmpFactsError`. -/
def StageOutcome (call : Except Raised α) (handler : String → α) (out : α) : Prop :=
  call = .ok out ∨ ∃ text, call = .error (.facts text) ∧ out = handler text

/-- The clause turns the one exception into what it returns. -/
theorem catchFacts_eq_ok {call : Except Raised α} {handler : String → α} {out : α} :
    catchFacts call handler = .ok out ↔ StageOutcome call handler out := by
  match call with
  | .ok a => simp [catchFacts, StageOutcome]
  | .error (.facts text) => simp [catchFacts, StageOutcome, eq_comm]
  | .error .other => simp [catchFacts, StageOutcome]

/-- A stage has an outcome exactly if it is guarded. -/
theorem exists_stageOutcome_iff {call : Except Raised α} {handler : String → α} :
    (∃ out, StageOutcome call handler out) ↔ Guarded call := by
  rw [guarded_iff]
  constructor
  · rintro ⟨out, h | ⟨text, h, -⟩⟩
    · exact .inl ⟨out, h⟩
    · exact .inr ⟨text, h⟩
  · rintro (⟨a, h⟩ | ⟨text, h⟩)
    · exact ⟨a, .inl h⟩
    · exact ⟨handler text, .inr ⟨text, h, rfl⟩⟩

/-! ### What the stages need -/

/-- The facts are read of a response without an error. -/
theorem readReply_eq_ok {reply : GetReply} {facts : Dict String String} :
    readReply reply = .ok facts ↔
      ∃ binds, reply = .response none none binds ∧ factsOf binds = facts := by
  rcases reply with e | ⟨_ | indication, _ | status, binds⟩ <;> simp [readReply]

/-- Whatever the reply, nothing but a `SnmpFactsError` is raised over it. -/
theorem guarded_readReply (reply : GetReply) : Guarded (readReply reply) := by
  rcases reply with e | ⟨_ | indication, _ | status, binds⟩ <;> simp [readReply]

/-- The arguments of a stage convert, where pysnmp can be loaded. -/
def Converts (net : DeviceNet ι ν) (stage : Stage) (params : Json) (timeoutMs : ℤ) : Prop :=
  net.load stage = .ok () → (portOf params).isSome ∧ (secondsOf timeoutMs).isSome

/-- The device answers the request for its facts. -/
def AnswersFacts (net : DeviceNet ι ν) (params : Json) (timeoutMs : ℤ) : Prop :=
  ∃ port seconds binds, net.load .facts = .ok () ∧ portOf params = some port ∧
    secondsOf timeoutMs = some seconds ∧ net.get port seconds = .response none none binds

/-- The credentials and the transport of a stage are good. -/
def Opens (net : DeviceNet ι ν) (stage : Stage) (params : Json) (timeoutMs : ℤ) : Prop :=
  ∃ port seconds, net.load stage = .ok () ∧ portOf params = some port ∧
    secondsOf timeoutMs = some seconds ∧ net.session stage port seconds = .ok ()

/-- What a poll needs in order to have a result. -/
structure Pollable (net : DeviceNet ι ν) (params : Json) (timeoutMs : ℤ) (mode : String) :
    Prop where
  /-- The port and the timeout convert. -/
  converts : Converts net .facts params timeoutMs
  /-- An engine starts for each later stage that gets as far as that. -/
  engine : AnswersFacts net params timeoutMs → ∀ stage ≠ .facts,
    Opens net stage params timeoutMs → net.engine stage
  /-- And the MAC options convert, if that stage gets as far as that. -/
  options : AnswersFacts net params timeoutMs → Opens net .mac params timeoutMs →
    (macOptions (macParams params) mode).isSome

section

variable {net : DeviceNet ι ν} {stage : Stage} {params : Json} {timeoutMs : ℤ} {mode : String}

/-- What each stage does first: pysnmp, the port and the timeout. -/
theorem beginStage_eq_ok {port : ℤ} {seconds : ℚ} :
    beginStage net stage params timeoutMs = .ok (port, seconds) ↔
      net.load stage = .ok () ∧ portOf params = some port ∧ secondsOf timeoutMs = some seconds := by
  rcases hload : net.load stage with e | ⟨⟩
  · simp [beginStage, hload]
  · rcases hport : portOf params with - | port'
    · simp [beginStage, hload, hport]
    · rcases hseconds : secondsOf timeoutMs with - | seconds' <;>
        simp [beginStage, hload, hport, hseconds]

/-- Of these, the conversions are not guarded. -/
theorem guarded_beginStage :
    Guarded (beginStage net stage params timeoutMs) ↔ Converts net stage params timeoutMs := by
  rcases hload : net.load stage with e | ⟨⟩
  · simp [beginStage, Converts, hload]
  · rcases hport : portOf params with - | port
    · simp [beginStage, Converts, hload, hport]
    · rcases hseconds : secondsOf timeoutMs with - | seconds <;>
        simp [beginStage, Converts, hload, hport, hseconds]

/-- And they are all that the facts stage does outside its `try`. -/
theorem guarded_fetchSystemFacts :
    Guarded (fetchSystemFacts net params timeoutMs) ↔ Converts net .facts params timeoutMs := by
  rw [fetchSystemFacts, guarded_bind, guarded_beginStage]
  refine and_iff_left fun begun _ ↦ ?_
  exact guarded_readReply (net.get begun.1 begun.2)

/-- The facts are there when the device answers. -/
theorem exists_facts_iff :
    (∃ facts, fetchSystemFacts net params timeoutMs = .ok facts) ↔
      AnswersFacts net params timeoutMs := by
  constructor
  · rintro ⟨facts, h⟩
    obtain ⟨⟨port, seconds⟩, hbegin, hreply⟩ := except_bind_eq_ok.1 h
    obtain ⟨hload, hport, hseconds⟩ := beginStage_eq_ok.1 hbegin
    obtain ⟨binds, hget, -⟩ := readReply_eq_ok.1 hreply
    exact ⟨port, seconds, binds, hload, hport, hseconds, hget⟩
  · rintro ⟨port, seconds, binds, hload, hport, hseconds, hget⟩
    exact ⟨factsOf binds, except_bind_eq_ok.2 ⟨(port, seconds),
      beginStage_eq_ok.2 ⟨hload, hport, hseconds⟩, readReply_eq_ok.2 ⟨binds, hget, rfl⟩⟩⟩

/-- Once the device has answered, every stage has its port and its timeout. -/
theorem AnswersFacts.converts (h : AnswersFacts net params timeoutMs) (stage : Stage) :
    Converts net stage params timeoutMs := by
  obtain ⟨port, seconds, binds, -, hport, hseconds, -⟩ := h
  intro _
  simp [hport, hseconds]

/-- The later stages start an engine outside it, too. -/
theorem guarded_openStage (h : Converts net stage params timeoutMs) :
    Guarded (openStage net stage params timeoutMs) ↔
      (Opens net stage params timeoutMs → net.engine stage) := by
  rw [openStage, guarded_bind, guarded_beginStage, and_iff_right h]
  constructor
  · rintro hrest ⟨port, seconds, hload, hport, hseconds, hsession⟩
    have hguarded := hrest (port, seconds) (beginStage_eq_ok.2 ⟨hload, hport, hseconds⟩)
    by_contra hengine
    simp [hsession, hengine] at hguarded
  · rintro hengine ⟨port, seconds⟩ hbegin
    obtain ⟨hload, hport, hseconds⟩ := beginStage_eq_ok.1 hbegin
    rcases hsession : net.session stage port seconds with e | ⟨⟩
    · simp [hsession]
    · simp [hsession, hengine ⟨port, seconds, hload, hport, hseconds, hsession⟩]

theorem guarded_interfacesStage (h : Converts net .interfaces params timeoutMs) :
    Guarded (interfacesStage net params timeoutMs) ↔
      (Opens net .interfaces params timeoutMs → net.engine .interfaces) := by
  rw [interfacesStage, guarded_bind, guarded_openStage h, and_iff_left]
  intro _ _
  exact guarded_ok

theorem guarded_topologyStage {interfaces : List ι}
    (h : Converts net .topology params timeoutMs) :
    Guarded (topologyStage net params timeoutMs interfaces) ↔
      (Opens net .topology params timeoutMs → net.engine .topology) := by
  rw [topologyStage, guarded_bind, guarded_openStage h, and_iff_left]
  intro _ _
  exact guarded_ok

/-- A stage that is open has everything it needs. -/
theorem openStage_eq_ok :
    openStage net stage params timeoutMs = .ok () ↔
      Opens net stage params timeoutMs ∧ net.engine stage := by
  constructor
  · intro h
    obtain ⟨⟨port, seconds⟩, hbegin, hrest⟩ := except_bind_eq_ok.1 h
    obtain ⟨hload, hport, hseconds⟩ := beginStage_eq_ok.1 hbegin
    rcases hsession : net.session stage port seconds with e | ⟨⟩
    · simp [hsession] at hrest
    · exact ⟨⟨port, seconds, hload, hport, hseconds, hsession⟩, by simpa [hsession] using hrest⟩
  · rintro ⟨⟨port, seconds, hload, hport, hseconds, hsession⟩, hengine⟩
    refine except_bind_eq_ok.2 ⟨(port, seconds), beginStage_eq_ok.2 ⟨hload, hport, hseconds⟩, ?_⟩
    simp [hsession, hengine]

/-- The MAC table has its options to convert as well. -/
theorem guarded_macStage {interfaces : List ι} (h : Converts net .mac params timeoutMs) :
    Guarded (macStage net params timeoutMs mode interfaces) ↔
      (Opens net .mac params timeoutMs →
        net.engine .mac ∧ (macOptions (macParams params) mode).isSome) := by
  rw [macStage, guarded_bind, guarded_openStage h]
  constructor
  · rintro ⟨hengine, hrest⟩ hopens
    have hguarded := hrest () (openStage_eq_ok.2 ⟨hopens, hengine hopens⟩)
    refine ⟨hengine hopens, ?_⟩
    rcases hopts : macOptions (macParams params) mode with - | opts
    · simp [hopts] at hguarded
    · rfl
  · intro h
    refine ⟨fun hopens ↦ (h hopens).1, fun _ hopen ↦ ?_⟩
    obtain ⟨opts, hopts⟩ := Option.isSome_iff_exists.1 (h (openStage_eq_ok.1 hopen).1).2
    simp [hopts]

/-! ### A poll -/

/-- The result of a poll, from what its own stages end in. -/
inductive Reported (net : DeviceNet ι ν) (params : Json) (timeoutMs : ℤ) (mode : String) :
    SnmpResult ι ν → Prop
  /-- The facts could not be read: everything else is as if it had not been tried. -/
  | unreachable {text : String} (facts : fetchSystemFacts net params timeoutMs =
      .error (.facts text)) :
    Reported net params timeoutMs mode { SnmpResult.notRead with error := cutTo 500 text }
  /-- They could: each later stage has its own part, and no other. -/
  | reached {result : SnmpResult ι ν}
    (facts : fetchSystemFacts net params timeoutMs = .ok result.data)
    (interfaces : StageOutcome (interfacesStage net params timeoutMs) (fun _ ↦ [])
      result.interfaces)
    (mac : StageOutcome (macStage net params timeoutMs mode result.interfaces)
      (fun text ↦ ([], .failed (cutTo 300 text))) (result.fdb, result.fdbMeta))
    (topology : StageOutcome (topologyStage net params timeoutMs result.interfaces)
      (fun text ↦ ([], [], .failed (cutTo 300 text)))
      (result.neighbors, result.arp, result.arpMeta))
    (reachable : result.reachable = true) (error : result.error = "") :
    Reported net params timeoutMs mode result

/-- What a poll returns is what its stages report, each by itself. -/
theorem fetchSnmp_eq_ok {result : SnmpResult ι ν} :
    fetchSnmp net params timeoutMs mode = .ok result ↔
      Reported net params timeoutMs mode result := by
  constructor
  · intro h
    rw [fetchSnmp] at h
    split at h
    · cases h
    · next text hfacts =>
      cases h
      exact .unreachable hfacts
    · next facts hfacts =>
      obtain ⟨interfaces, hinterfaces, h⟩ := except_bind_eq_ok.1 h
      obtain ⟨⟨fdb, fdbMeta⟩, hmac, h⟩ := except_bind_eq_ok.1 h
      obtain ⟨⟨neighbors, arp, arpMeta⟩, htopology, h⟩ := except_bind_eq_ok.1 h
      cases h
      exact .reached hfacts (catchFacts_eq_ok.1 hinterfaces) (catchFacts_eq_ok.1 hmac)
        (catchFacts_eq_ok.1 htopology) rfl rfl
  · intro h
    cases h with
    | unreachable facts => rw [fetchSnmp, facts]
    | reached facts interfaces mac topology reachable error =>
      obtain ⟨data, ifs, neighbors, arp, arpMeta, fdb, fdbMeta, reach, err⟩ := result
      simp only at facts interfaces mac topology reachable error
      subst reachable error
      rw [fetchSnmp, facts]
      exact except_bind_eq_ok.2 ⟨ifs, catchFacts_eq_ok.2 interfaces,
        except_bind_eq_ok.2 ⟨(fdb, fdbMeta), catchFacts_eq_ok.2 mac,
          except_bind_eq_ok.2 ⟨(neighbors, arp, arpMeta), catchFacts_eq_ok.2 topology, rfl⟩⟩⟩

/-- A poll has a result exactly when it is pollable. -/
theorem exists_reported_iff :
    (∃ result : SnmpResult ι ν, Reported net params timeoutMs mode result) ↔
      Pollable net params timeoutMs mode := by
  constructor
  · rintro ⟨result, h⟩
    cases h with
    | unreachable facts =>
      refine ⟨guarded_fetchSystemFacts.1 (guarded_iff.2 (.inr ⟨_, facts⟩)), ?_, ?_⟩
      all_goals
        intro hanswers
        obtain ⟨data, hdata⟩ := exists_facts_iff.2 hanswers
        simp [hdata] at facts
    | reached facts interfaces mac topology =>
      have hanswers : AnswersFacts net params timeoutMs := exists_facts_iff.1 ⟨_, facts⟩
      have hinterfaces := (guarded_interfacesStage (hanswers.converts _)).1
        (exists_stageOutcome_iff.1 ⟨_, interfaces⟩)
      have hmac := (guarded_macStage (hanswers.converts _)).1
        (exists_stageOutcome_iff.1 ⟨_, mac⟩)
      have htopology := (guarded_topologyStage (hanswers.converts _)).1
        (exists_stageOutcome_iff.1 ⟨_, topology⟩)
      refine ⟨hanswers.converts _, fun _ stage hstage hopens ↦ ?_, fun _ hopens ↦ (hmac hopens).2⟩
      cases stage with
      | facts => exact absurd rfl hstage
      | interfaces => exact hinterfaces hopens
      | mac => exact (hmac hopens).1
      | topology => exact htopology hopens
  · intro h
    rcases guarded_iff.1 (guarded_fetchSystemFacts.2 h.converts) with ⟨data, hdata⟩ | ⟨text, htext⟩
    · have hanswers : AnswersFacts net params timeoutMs := exists_facts_iff.1 ⟨_, hdata⟩
      -- one stage after another, each over the interfaces that were read
      obtain ⟨interfaces, hinterfaces⟩ := exists_stageOutcome_iff.2 <|
        (guarded_interfacesStage (hanswers.converts _)).2 (h.engine hanswers _ (by simp))
      obtain ⟨⟨fdb, fdbMeta⟩, hmac⟩ := exists_stageOutcome_iff.2 <|
        (guarded_macStage (hanswers.converts _)).2 fun hopens ↦
          ⟨h.engine hanswers _ (by simp) hopens, h.options hanswers hopens⟩
      obtain ⟨⟨neighbors, arp, arpMeta⟩, htopology⟩ := exists_stageOutcome_iff.2 <|
        (guarded_topologyStage (hanswers.converts _)).2 (h.engine hanswers _ (by simp))
      exact ⟨⟨data, interfaces, neighbors, arp, arpMeta, fdb, fdbMeta, true, ""⟩,
        .reached hdata hinterfaces hmac htopology rfl rfl⟩
    · exact ⟨_, .unreachable htext⟩

end

/-! ### The cycle -/

/-- The result that is posted for a device: under its `device_id`, and from its own poll. -/
def PostedFor (d : Device × DeviceNet ι ν) (post : Json × SnmpResult ι ν) : Prop :=
  post.1 = d.1.deviceId ∧ ∃ timeoutMs, d.1.timeout = some timeoutMs ∧
    Reported d.2 d.1.paramsOrEmpty timeoutMs "full" post.2

/-- The result of a device carries its own `device_id`. -/
theorem discoverDevice_eq_ok {d : Device × DeviceNet ι ν} {post : Json × SnmpResult ι ν} :
    discoverDevice d.1 d.2 = .ok post ↔ PostedFor d post := by
  rcases htimeout : d.1.timeout with - | timeoutMs
  · simp [discoverDevice, PostedFor, htimeout]
  · rcases hfetch : fetchSnmp d.2 d.1.paramsOrEmpty timeoutMs "full" with e | result
    · simp [discoverDevice, PostedFor, htimeout, hfetch, ← fetchSnmp_eq_ok]
    · obtain ⟨deviceId, posted⟩ := post
      simp [discoverDevice, PostedFor, htimeout, hfetch, ← fetchSnmp_eq_ok, eq_comm]

/-- A cycle posts exactly if each of its devices has a result. -/
theorem snmpCycle_eq_ok {interval next : ℤ} {intervalSeconds : Option Json}
    {devices : List (Device × DeviceNet ι ν)} {posted : List (Json × SnmpResult ι ν)} :
    snmpCycle interval intervalSeconds devices = .ok (next, posted) ↔
      nextInterval interval intervalSeconds = some next ∧
        List.Forall₂ PostedFor devices posted := by
  have hgather : gatherAll (devices.map fun d ↦ discoverDevice d.1 d.2) = .ok posted ↔ _ :=
    gatherAll_map_eq_ok
  simp only [discoverDevice_eq_ok] at hgather
  show _ ↔ _ ∧ List.Forall₂ (fun d post ↦ PostedFor d post) devices posted
  rw [← hgather, snmpCycle]
  rcases nextInterval interval intervalSeconds with - | next'
  · simp
  · rcases hresults : gatherAll (devices.map fun d ↦ discoverDevice d.1 d.2) with e | results <;>
      simp [hresults]

/-- The cycle posts one result for each device, in order, under its `device_id` and from its own
poll, exactly when its interval converts and every device is pollable.

Every stage is guarded against `SnmpFactsError` only, and converts its port and its timeout outside
of its own `try`. `gather` then loses the results of all devices, so that one device decides for the
others. -/
theorem snmpCycle_posts_iff (interval : ℤ) (intervalSeconds : Option Json)
    (devices : List (Device × DeviceNet ι ν)) :
    (∃ next posted, snmpCycle interval intervalSeconds devices = .ok (next, posted) ∧
      List.Forall₂ PostedFor devices posted) ↔
    (nextInterval interval intervalSeconds).isSome ∧
      ∀ d ∈ devices, ∃ timeoutMs, d.1.timeout = some timeoutMs ∧
        Pollable d.2 d.1.paramsOrEmpty timeoutMs "full" := by
  constructor
  · rintro ⟨next, posted, h, hposted⟩
    refine ⟨Option.isSome_iff_exists.2 ⟨next, (snmpCycle_eq_ok.1 h).1⟩, fun d hd ↦ ?_⟩
    have hpolls := exists_gatherAll_iff.1 ⟨posted,
      gatherAll_map_eq_ok.2 (hposted.imp fun _ _ ↦ discoverDevice_eq_ok.2)⟩
    obtain ⟨post, hpost⟩ := hpolls _ (List.mem_map_of_mem hd)
    obtain ⟨-, timeoutMs, htimeout, hreported⟩ := discoverDevice_eq_ok.1 hpost
    exact ⟨timeoutMs, htimeout, exists_reported_iff.1 ⟨post.2, hreported⟩⟩
  · rintro ⟨hinterval, hdevices⟩
    obtain ⟨next, hnext⟩ := Option.isSome_iff_exists.1 hinterval
    have hpolls : ∀ call ∈ devices.map fun d ↦ discoverDevice d.1 d.2, ∃ post, call = .ok post := by
      intro call hcall
      obtain ⟨d, hd, rfl⟩ := List.mem_map.1 hcall
      obtain ⟨timeoutMs, htimeout, hpollable⟩ := hdevices d hd
      obtain ⟨result, hreported⟩ := exists_reported_iff.2 hpollable
      exact ⟨(d.1.deviceId, result), discoverDevice_eq_ok.2 ⟨rfl, timeoutMs, htimeout, hreported⟩⟩
    obtain ⟨posted, hposted⟩ := exists_gatherAll_iff.2 hpolls
    have hfor : List.Forall₂ PostedFor devices posted :=
      (gatherAll_map_eq_ok.1 hposted).imp fun _ _ ↦ discoverDevice_eq_ok.1
    exact ⟨next, posted, snmpCycle_eq_ok.2 ⟨hnext, hfor⟩, hfor⟩

/-- A device that answers with nothing in any of its tables. -/
def bareNet : DeviceNet Unit Unit where
  load _ := .ok ()
  get _ _ := .response none none []
  session _ _ _ := .ok ()
  engine _ := true
  interfaces := []
  macTable _ _ := ([], .failed "")
  topology _ := ([], [], .failed "")

/-- A device with nothing but its id. -/
def bareDevice : Device := ⟨.str "a", .null, .null⟩

/-- The port of the device is set to `null`. -/
def nullPortDevice : Device := ⟨.str "b", .obj [("port", .null)], .null⟩

theorem secondsOf_default : secondsOf 2000 = some 2 := by
  have hfits : |(2000 : ℤ)| < 1000 * (2 ^ 1024 - 2 ^ 970) := by decide +kernel
  rw [secondsOf, if_pos hfits]
  norm_num

/-- A device of which nothing but its facts is read. -/
theorem bareDevice_reported : discoverDevice bareDevice bareNet =
    .ok (.str "a", { SnmpResult.notRead with
      reachable := true, arpMeta := .failed "", fdbMeta := .failed "", error := "" }) := by
  have htimeout : bareDevice.timeout = some 2000 := rfl
  have hport : portOf bareDevice.paramsOrEmpty = some 161 := rfl
  have hoptions : (macOptions (macParams bareDevice.paramsOrEmpty) "full").isSome := by decide
  obtain ⟨opts, hopts⟩ := Option.isSome_iff_exists.1 hoptions
  have hbegin (stage : Stage) :
      beginStage bareNet stage bareDevice.paramsOrEmpty 2000 = .ok (161, 2) :=
    beginStage_eq_ok.2 ⟨rfl, hport, secondsOf_default⟩
  have hopen (stage : Stage) : openStage bareNet stage bareDevice.paramsOrEmpty 2000 = .ok () :=
    openStage_eq_ok.2 ⟨⟨161, 2, rfl, hport, secondsOf_default, rfl⟩, rfl⟩
  have hfacts : fetchSystemFacts bareNet bareDevice.paramsOrEmpty 2000 = .ok Dict.empty :=
    except_bind_eq_ok.2 ⟨(161, 2), hbegin _, rfl⟩
  have hinterfaces : interfacesStage bareNet bareDevice.paramsOrEmpty 2000 = .ok [] :=
    except_bind_eq_ok.2 ⟨(), hopen _, rfl⟩
  have hmac : macStage bareNet bareDevice.paramsOrEmpty 2000 "full" [] = .ok ([], .failed "") :=
    except_bind_eq_ok.2 ⟨(), hopen _, by simp only [hopts, bareNet]⟩
  have htopology : topologyStage bareNet bareDevice.paramsOrEmpty 2000 [] =
      .ok ([], [], .failed "") := except_bind_eq_ok.2 ⟨(), hopen _, rfl⟩
  exact (discoverDevice_eq_ok (d := (bareDevice, bareNet))).2 ⟨rfl, 2000, htimeout,
    .reached hfacts (.inl hinterfaces) (.inl hmac) (.inl htopology) rfl rfl⟩

/-- One device with a `null` port costs the result of another, which would be posted alone. -/
theorem nullPort_silences_cycle :
    (∃ post, discoverDevice bareDevice bareNet = .ok post) ∧
    ¬∃ next posted,
      snmpCycle 300 none [(bareDevice, bareNet), (nullPortDevice, bareNet)] =
        .ok (next, posted) := by
  refine ⟨⟨_, bareDevice_reported⟩, ?_⟩
  rintro ⟨next, posted, h⟩
  have hnull : discoverDevice nullPortDevice bareNet = .error .other := rfl
  simp [snmpCycle, nextInterval, Json.pyInt, gatherAll, bareDevice_reported, hnull] at h

end Snmp
