import VipSteering.Proofs.Balancer.Jobs
import VipSteering.Proofs.Gateway.Leases
import VipSteering.Proofs.Gateway.Withdrawn

namespace VipSteering

open Balancer Host

namespace Roster

variable {σ H : Type}

/-- The last of the flows that are asked for under a key, as far as services are on record. -/
def latest (r : Roster H σ) (specs : List FlowSpec) (key : String) : Option FlowSpec :=
  (specs.filter fun spec => spec.service ∈ r.services && spec.key = key).getLast?

theorem getElem?_byKey_eq (r : Roster H σ) (specs : List FlowSpec) (key : String) :
    (byKey r specs)[key]? = r.latest specs key := by
  rw [byKey, getElem?_ofList, List.filter_map, List.getLast?_map, Option.map_map, List.filter_filter]
  refine (congrFun Option.map_id _).trans (congrArg List.getLast? ?_)
  refine List.filter_congr fun spec _ => ?_
  exact Bool.and_comm _ _

theorem latest_eq_none {r : Roster H σ} {specs : List FlowSpec} {key : String} :
    r.latest specs key = none ↔ key ∉ byKey r specs := by
  rw [← getElem?_byKey_eq]
  exact ⟨not_mem_of_getElem?, Std.ExtTreeMap.getElem?_eq_none⟩

theorem key_of_latest {r : Roster H σ} {specs : List FlowSpec} {key : String} {spec : FlowSpec}
    (h : r.latest specs key = some spec) : spec.key = key := by
  rw [← getElem?_byKey_eq] at h
  exact key_of_getElem?_byKey h

theorem service_of_latest {r : Roster H σ} {specs : List FlowSpec} {key : String} {spec : FlowSpec}
    (h : r.latest specs key = some spec) : spec.service ∈ r.services := by
  rw [← getElem?_byKey_eq] at h
  exact (of_mem_byKey_values (mem_values.mpr ⟨key, h⟩)).2

/-- What is to be done to bring the flows in line: first what is stale goes, then what is wanted is
set. -/
def jobs (r : Roster H σ) (specs : List FlowSpec) : List FlowJob :=
  (r.staleFlows specs).map .drop ++ (byKey r specs).values.map .put

theorem jobs_keys (r : Roster H σ) (specs : List FlowSpec) :
    (r.jobs specs).map (·.key) = r.staleFlows specs ++ (byKey r specs).keys := by
  rw [jobs, List.map_append, List.map_map, List.map_map, ← keys_byKey]
  exact congrArg (· ++ _) (List.map_id' _)

theorem jobs_nodup (r : Roster H σ) (specs : List FlowSpec) :
    ((r.jobs specs).map (·.key)).Nodup := by
  rw [jobs_keys]
  refine List.nodup_append.mpr ⟨?_, Std.ExtTreeMap.nodup_keys, fun key hstale other hwanted heq => ?_⟩
  · exact Std.ExtTreeMap.nodup_keys.filter _
  · subst heq
    exact (mem_staleFlows.mp hstale).2 (Std.ExtTreeMap.mem_keys.mp hwanted)

theorem drop_mem_jobs {r : Roster H σ} {specs : List FlowSpec} {key : String} :
    .drop key ∈ r.jobs specs ↔ key ∈ r.flows ∧ r.latest specs key = none := by
  rw [jobs, List.mem_append, latest_eq_none, ← mem_staleFlows]
  simp

theorem put_mem_jobs {r : Roster H σ} {specs : List FlowSpec} {spec : FlowSpec} :
    .put spec ∈ r.jobs specs ↔ r.latest specs spec.key = some spec := by
  rw [jobs, List.mem_append, ← getElem?_byKey_eq]
  simp only [List.mem_map, reduceCtorEq, and_false, exists_false, false_or, FlowJob.put.injEq,
    exists_eq_right, mem_values]
  constructor
  · rintro ⟨key, hget⟩
    rwa [key_of_getElem?_byKey hget]
  · exact fun hget => ⟨spec.key, hget⟩

end Roster

namespace Gateway

open Roster

section OwnNamed

variable {fates : Fates} {settings : Settings} {g g' : Gateway (Flaky fates)}

/-- Services are on record under their own names, and only with a program that keeps flows. -/
structure OwnNamed (settings : Settings) (g : Gateway (Flaky fates)) : Prop where
  name : ∀ {n : String} {l : Lease}, g.services[n]? = some l → l.name = n
  program : ∀ {n : String} {l : Lease}, g.services[n]? = some l →
    Text.endsWith "nfqlb" settings.program = true

theorem OwnNamed.of_served (h : OwnNamed settings g)
    (hservices : ∀ {n : String} {l : Lease}, g'.services[n]? = some l → g.services[n]? = some l ∨
      l.name = n ∧ Text.endsWith "nfqlb" settings.program = true) : OwnNamed settings g' := by
  refine ⟨fun hn => ?_, fun hn => ?_⟩
  · rcases hservices hn with hold | ⟨hname, -⟩
    · exact h.name hold
    · exact hname
  · rcases hservices hn with hold | ⟨-, hp⟩
    · exact h.program hold
    · exact hp

theorem dropService_ownNamed (h : OwnNamed settings g) (name : String) :
    OwnNamed settings (dropService (Balancer.engine settings) name g).2 := by
  rw [dropService_eq]
  dsimp only
  split
  · exact h.of_served .inl
  · exact h.of_served fun hn => .inl (of_getElem?_erase hn).2

theorem addService_ownNamed (hleases : SoundLeases settings g) (h : OwnNamed settings g)
    (spec : ServiceSpec) :
    OwnNamed settings (Roster.addService (Balancer.engine settings) spec g).2 := by
  have hadded := addService_follows hleases.books.sound spec.name spec.maxEndpoints
  have hleft := (hleases.follows hadded).books
  rw [Roster.addService_eq]
  split
  · exact h
  rw [engine_addService]
  dsimp only
  split
  · exact h.of_served .inl
  · rename_i l hok
    refine h.of_served fun hn => ?_
    rcases of_getElem?_insert hn with ⟨rfl, rfl⟩ | ⟨-, hn⟩
    · have hregistered := addService_registered (mapError_eq_ok.mp hok)
      exact .inr ⟨hleft.sound.name hregistered, hleft.program hregistered⟩
    · exact .inl hn

theorem setServices_ownNamed (h : SoundLeases settings g ∧ OwnNamed settings g)
    (specs : List ServiceSpec) :
    let left := (setServices (Balancer.engine settings) specs g).2
    SoundLeases settings left ∧ OwnNamed settings left :=
  setServices_keeps _ (P := fun r => SoundLeases settings r ∧ OwnNamed settings r)
    (fun name _ hr => ⟨dropService_soundLeases hr.1 name, dropService_ownNamed hr.2 name⟩)
    (fun _ hr => ⟨⟨hr.1.books, hr.1.knows⟩, hr.2.of_served .inl⟩)
    (fun spec _ hr => ⟨addService_soundLeases hr.1 spec, addService_ownNamed hr.1 hr.2 spec⟩) specs h

/-- Only setting services alters which are on record. -/
theorem OwnNamed.congr (h : OwnNamed settings g) (hservices : g'.services = g.services) :
    OwnNamed settings g' :=
  h.of_served fun hn => .inl (hservices ▸ hn)

theorem OwnNamed.fresh (settings : Settings) (host : Flaky fates) :
    OwnNamed settings (Gateway.fresh host) :=
  ⟨fun hn => by simp [Gateway.fresh] at hn, fun hn => by simp [Gateway.fresh] at hn⟩

theorem setEndpoints_services (service : String) (specs : List EndpointSpec) :
    (setEndpoints (Balancer.engine settings) service specs g).2.services = g.services := by
  obtain ⟨s, endpoints, heq⟩ := setEndpoints_frame (Balancer.engine settings) service specs g
  rw [heq]

theorem Happening.apply_ownNamed (h : SoundLeases settings g ∧ OwnNamed settings g)
    (happening : Happening) :
    SoundLeases settings (happening.apply settings g) ∧
      OwnNamed settings (happening.apply settings g) := by
  refine ⟨happening.apply_soundLeases h.1, ?_⟩
  cases happening with
  | restart => exact .fresh settings g.engine.host
  | setUp | tearDown _ | operate _ | disturb _ | reroute _ => exact h.2.congr rfl
  | call c =>
    cases c with
    | setServices specs => exact (setServices_ownNamed h specs).2
    | setFlows specs => exact h.2.congr (setFlows_services _ specs g)
    | setEndpoints service specs => exact h.2.congr (setEndpoints_services service specs)
  | snapshot d slots =>
    exact (apply_keeps _ (P := fun r => SoundLeases settings r ∧ OwnNamed settings r)
      (fun specs _ hr => setServices_ownNamed hr specs)
      (fun specs r hr =>
        ⟨setFlows_soundLeases hr.1 specs, hr.2.congr (setFlows_services _ specs r)⟩)
      (fun service specs _ hr => ⟨setEndpoints_soundLeases hr.1 service specs,
        hr.2.congr (setEndpoints_services service specs)⟩) d slots h).2

theorem afterHappenings_ownNamed (settings : Settings) (fates : Fates)
    (happenings : List Happening) :
    OwnNamed settings (afterHappenings settings fates happenings) :=
  (afterHappenings_induction (P := fun g => SoundLeases settings g ∧ OwnNamed settings g)
    ⟨.empty settings _, .fresh settings _⟩
    fun _ happening _ hg => happening.apply_ownNamed hg).2

end OwnNamed

section Turns

variable {σ : Type} [Shell σ] {settings : Settings} {r : Gateway σ}

/-- What is reported of a job that goes wrong. -/
def jobFault : FlowJob → Balancer.Fault → Roster.Fault (Report Balancer.Fault)
  | .drop key, fault => .deleteFlow key (.one fault)
  | .put spec, fault => .addFlow spec.key (.one fault)

/-- The report of a job on the host as it finds it. -/
def reportOf (program : String) (turn : FlowJob × σ) :
    Option (Roster.Fault (Report Balancer.Fault)) :=
  match (turn.1.perform program turn.2).1 with
  | .ok () => none
  | .error fault => some (jobFault turn.1 fault)

/-- What each item of a list does as a job, the list does as jobs in turn. -/
theorem attemptAll_turns {α : Type} {program : String} (job : α → FlowJob)
    {task : α → StateM (Gateway σ) (Except (Roster.Fault (Report Balancer.Fault)) Unit)}
    {I : List α → Gateway σ → Prop}
    (hone : ∀ a rest r, I (a :: rest) r →
      (task a r).1 = ((job a).perform program r.engine.host).1.mapError (jobFault (job a)) ∧
      (task a r).2.engine.host = ((job a).perform program r.engine.host).2 ∧
      I rest (task a r).2) {items : List α} (h : I items r) :
    (attemptAll task items r).1 =
        (turns program (items.map job) r.engine.host).filterMap (reportOf program) ∧
      (attemptAll task items r).2.engine.host =
        afterJobs program (items.map job) r.engine.host := by
  induction items generalizing r with
  | nil => exact ⟨rfl, rfl⟩
  | cons a rest ih =>
    obtain ⟨hresult, hhost, hrest⟩ := hone a rest r h
    obtain ⟨hreports, hleft⟩ := ih hrest
    rw [hhost] at hreports hleft
    rw [attemptAll_cons, hresult, hreports, hleft]
    refine ⟨?_, rfl⟩
    rw [List.map_cons, turns, List.filterMap_cons, reportOf]
    cases ((job a).perform program r.engine.host).1 <;> rfl

/-- The flow is on record under its own key, with its service. -/
def OnRecord (r : Gateway σ) (key : String) : Prop :=
  ∃ spec l, r.flows[key]? = some spec ∧ spec.key = key ∧ r.services[spec.service]? = some l

theorem dropFlow_job {key : String} (h : OnRecord r key) :
    let done := (FlowJob.drop key).perform settings.program r.engine.host
    dropFlow (Balancer.engine settings) key r = (done.1.mapError (jobFault (.drop key)),
      { r with flows := r.flows.erase key, engine := { r.engine with host := done.2 } }) := by
  obtain ⟨spec, l, hspec, rfl, hl⟩ := h
  rw [dropFlow_eq, hspec]
  dsimp only
  rw [hl]
  dsimp only
  rw [engine_deleteFlow]
  change (Except.mapError _ ((deleteFlow settings.program spec.key r.engine.host).1.mapError _), _) =
    ((deleteFlow settings.program spec.key r.engine.host).1.mapError _, _)
  cases (deleteFlow settings.program spec.key r.engine.host).1 <;> rfl

variable (settings) in
theorem dropFlows_turns {keys : List String} (hkeys : keys.Nodup)
    (h : ∀ key ∈ keys, OnRecord r key) :
    let dropped := attemptAll (dropFlow (Balancer.engine settings)) keys r
    dropped.1 = (turns settings.program (keys.map .drop) r.engine.host).filterMap
        (reportOf settings.program) ∧
      dropped.2.engine.host = afterJobs settings.program (keys.map .drop) r.engine.host := by
  refine attemptAll_turns FlowJob.drop
    (I := fun keys r => keys.Nodup ∧ ∀ key ∈ keys, OnRecord r key)
    (fun key rest r hgiven => ?_) ⟨hkeys, h⟩
  obtain ⟨hkeys, hrecord⟩ := hgiven
  rw [List.nodup_cons] at hkeys
  rw [dropFlow_job (hrecord key List.mem_cons_self)]
  refine ⟨rfl, rfl, hkeys.2, fun other hother => ?_⟩
  obtain ⟨spec, l, hspec, hkey, hl⟩ := hrecord other (List.mem_cons_of_mem _ hother)
  have hne : key ≠ other := fun heq => hkeys.1 (heq ▸ hother)
  exact ⟨spec, l, (getElem?_erase_of_ne hne).trans hspec, hkey, hl⟩

/-- The service of the flow is on record under its own name. -/
def ForService (r : Gateway σ) (spec : FlowSpec) : Prop :=
  ∃ l, r.services[spec.service]? = some l ∧ l.name = spec.service

theorem putFlow_job {spec : FlowSpec} (h : ForService r spec) :
    let done := (FlowJob.put spec).perform settings.program r.engine.host
    putFlow (Balancer.engine settings) spec r = (done.1.mapError (jobFault (.put spec)),
      { r with
        flows := r.flows.insert spec.key spec
        engine := { r.engine with host := done.2 } }) := by
  obtain ⟨l, hl, hname⟩ := h
  rw [putFlow_eq, hl]
  dsimp only
  rw [engine_addFlow, hname]
  change (Except.mapError _
    ((addFlow settings.program spec.service spec.flow r.engine.host).1.mapError _), _) =
      ((addFlow settings.program spec.service spec.flow r.engine.host).1.mapError _, _)
  cases (addFlow settings.program spec.service spec.flow r.engine.host).1 <;> rfl

variable (settings) in
theorem putFlows_turns {specs : List FlowSpec} (h : ∀ spec ∈ specs, ForService r spec) :
    let put := attemptAll (putFlow (Balancer.engine settings)) specs r
    put.1 = (turns settings.program (specs.map .put) r.engine.host).filterMap
        (reportOf settings.program) ∧
      put.2.engine.host = afterJobs settings.program (specs.map .put) r.engine.host := by
  refine attemptAll_turns FlowJob.put (I := fun specs r => ∀ spec ∈ specs, ForService r spec)
    (fun spec rest r hserved => ?_) h
  rw [putFlow_job (hserved spec List.mem_cons_self)]
  exact ⟨rfl, rfl, fun other hother => hserved other (List.mem_cons_of_mem _ hother)⟩

variable (settings) in
/-- Setting flows is the jobs in turn, with a report of each that goes wrong. -/
theorem setFlows_turns_eq (specs : List FlowSpec) (hrecord : ∀ key ∈ r.flows, OnRecord r key)
    (hserved : ∀ spec : FlowSpec, spec.service ∈ r.services → ForService r spec) :
    let answer := setFlows (Balancer.engine settings) specs r
    Report.leaves answer.1 = (turns settings.program (r.jobs specs) r.engine.host).filterMap
        (reportOf settings.program) ∧
      answer.2.engine.host = afterJobs settings.program (r.jobs specs) r.engine.host := by
  intro answer
  have hstale : (r.staleFlows specs).Nodup := Std.ExtTreeMap.nodup_keys.filter _
  obtain ⟨hdropped, hhost⟩ := dropFlows_turns settings hstale
    fun key hkey => hrecord key (mem_staleFlows.mp hkey).1
  have hservices := dropFlows_services (Balancer.engine settings) (r.staleFlows specs) r
  have hserved' : ∀ spec ∈ (byKey r specs).values, ForService
      (attemptAll (dropFlow (Balancer.engine settings)) (r.staleFlows specs) r).2 spec := by
    intro spec hspec
    obtain ⟨l, hl, hname⟩ := hserved spec (of_mem_byKey_values hspec).2
    exact ⟨l, by rwa [hservices], hname⟩
  obtain ⟨hput, hleft⟩ := putFlows_turns settings hserved'
  rw [hhost] at hput hleft
  have hanswer := setFlows_eq (Balancer.engine settings) specs r
  constructor
  · change Report.leaves (setFlows (Balancer.engine settings) specs r).1 = _
    rw [hanswer]
    dsimp only
    rw [Report.leaves_ofFaults, hdropped, hput, jobs, turns_append, List.filterMap_append]
  · change (setFlows (Balancer.engine settings) specs r).2.engine.host = _
    rw [hanswer]
    dsimp only
    rw [hleft, jobs, afterJobs, afterJobs, afterJobs, List.foldl_append]

end Turns

/-- The gateway on its host, on which just the commands of a set fail. -/
def refusing (g : Gateway Host) (failing : Command → Bool) :
    Gateway (Flaky (.refusing failing)) :=
  { g with engine := g.engine.refusing failing }

/-- What comes of setting flows while the commands of a set fail. -/
structure Independent {failing : Command → Bool} (program : String) (specs : List FlowSpec)
    (g : Gateway (Flaky (.refusing failing)))
    (answer : Except (Report (Roster.Fault (Report Balancer.Fault))) Unit ×
      Gateway (Flaky (.refusing failing))) : Prop where
  keys : ∀ key : String, key ∈ answer.2.flows ↔
    ∃ spec ∈ specs, spec.service ∈ g.services ∧ spec.key = key
  record : ∀ key : String, answer.2.flows[key]? = g.latest specs key
  /-- A flow that is wanted is held as its command has it, unless the command fails. -/
  set : ∀ (key : String) (spec : FlowSpec), g.latest specs key = some spec →
    failing (spec.flow.setCommand program spec.service) = false →
    ∃ e : FlowEntry,
      Maglev.parse (spec.flow.setCommand program spec.service).args = .ok (.setFlow key e) ∧
      answer.2.engine.host.host.hashing.flows[key]? = some e
  /-- A flow that goes off the record goes from the host, unless its command fails. -/
  deleted : ∀ key ∈ g.flows, g.latest specs key = none →
    failing (Flow.deleteCommand program key) = false →
    key ∉ answer.2.engine.host.host.hashing.flows
  others : ∀ key : String,
    (∀ spec, g.latest specs key = some spec →
      failing (spec.flow.setCommand program spec.service) = true) →
    (key ∈ g.flows → g.latest specs key = none →
      failing (Flow.deleteCommand program key) = true) →
    answer.2.engine.host.host.hashing.flows[key]? = g.engine.host.host.hashing.flows[key]?
  /-- No key has two jobs. -/
  once : ((g.jobs specs).map (·.key)).Nodup
  drops : ∀ key : String, .drop key ∈ g.jobs specs ↔ key ∈ g.flows ∧ g.latest specs key = none
  puts : ∀ spec : FlowSpec, .put spec ∈ g.jobs specs ↔ g.latest specs spec.key = some spec
  host : answer.2.engine.host = afterJobs program (g.jobs specs) g.engine.host
  /-- The faults are the reports of the jobs, each on the host as the jobs before have left it. -/
  faults : Report.leaves answer.1 =
    (turns program (g.jobs specs) g.engine.host).filterMap (reportOf program)
  /-- A job has something to report exactly if its flow command fails, or the refresh after it. -/
  failed : ∀ turn ∈ turns program (g.jobs specs) g.engine.host,
    (reportOf program turn).isSome ↔ turn.1.Fails program turn.2

section Failing

variable {failing : Command → Bool} {settings : Settings}
  {g : Gateway (Flaky (.refusing failing))} {specs : List FlowSpec}

theorem endsWith_of_job (hrecord : ∀ key ∈ g.flows, OnRecord g key)
    (hp : ∀ n ∈ g.services, Text.endsWith "nfqlb" settings.program = true) {j : FlowJob}
    (hj : j ∈ g.jobs specs) : Text.endsWith "nfqlb" settings.program = true := by
  cases j with
  | drop key =>
    obtain ⟨spec, l, -, -, hl⟩ := hrecord key (drop_mem_jobs.mp hj).1
    exact hp spec.service (mem_of_getElem? hl)
  | put spec => exact hp spec.service (service_of_latest (put_mem_jobs.mp hj))

theorem turns_faultless (program : String) {fates : Fates} {jobs : List FlowJob}
    {s : Flaky fates} (hf : s.host.faults = []) :
    ∀ turn ∈ turns program jobs s, turn.1 ∈ jobs ∧ turn.2.host.faults = [] := by
  induction jobs generalizing s with
  | nil => exact fun _ hmem => nomatch hmem
  | cons j rest ih =>
    intro turn hmem
    rcases List.mem_cons.mp hmem with rfl | hmem
    · exact ⟨List.mem_cons_self, hf⟩
    · obtain ⟨hjob, hleft⟩ := ih ((j.perform_faults program s).trans hf) turn hmem
      exact ⟨List.mem_cons_of_mem _ hjob, hleft⟩

theorem setFlows_independent (hf : g.engine.host.host.faults = [])
    (hrecord : ∀ key ∈ g.flows, OnRecord g key)
    (hserved : ∀ spec : FlowSpec, spec.service ∈ g.services → ForService g spec)
    (hp : ∀ n ∈ g.services, Text.endsWith "nfqlb" settings.program = true) :
    Independent settings.program specs g (setFlows (Balancer.engine settings) specs g) := by
  obtain ⟨hfaults, hhost⟩ := setFlows_turns_eq settings specs hrecord hserved
  have hprogram {j : FlowJob} (hj : j ∈ g.jobs specs) :=
    endsWith_of_job hrecord hp hj
  have hflows {j : FlowJob} (hj : j ∈ g.jobs specs) :=
    afterJobs_flows (hprogram hj) hf (jobs_nodup g specs) hj
  have hput {key : String} {spec : FlowSpec} (hspec : g.latest specs key = some spec) :
      .put spec ∈ g.jobs specs := by
    rw [put_mem_jobs, key_of_latest hspec]
    exact hspec
  refine ⟨fun key => ?_, fun key => ?_, fun key spec hspec hc => ?_, fun key hkey hnone hc => ?_,
    fun key hset hdeleted => ?_, jobs_nodup g specs, fun key => drop_mem_jobs,
    fun spec => put_mem_jobs, hhost, hfaults, fun turn hturn => ?_⟩
  · rw [setFlows_flows, mem_byKey]
  · rw [setFlows_flows, getElem?_byKey_eq]
  · have hheld := hflows (hput hspec)
    obtain rfl := key_of_latest hspec
    refine ⟨Maglev.entryOf spec.service spec.flow,
      Maglev.parse_setCommand settings.program spec.service spec.flow, ?_⟩
    rw [hhost]
    refine hheld.trans ?_
    rw [FlowJob.command, if_neg (Bool.eq_false_iff.mp hc)]
    rfl
  · have hgone := hflows (drop_mem_jobs.mpr ⟨hkey, hnone⟩)
    rw [FlowJob.command, if_neg (Bool.eq_false_iff.mp hc)] at hgone
    rw [hhost]
    exact not_mem_of_getElem? hgone
  · rw [hhost]
    by_cases hkey : key ∈ (g.jobs specs).map (·.key)
    · obtain ⟨j, hj, rfl⟩ := List.mem_map.mp hkey
      have hfailing : failing (j.command settings.program) = true := by
        cases j with
        | drop key =>
          obtain ⟨hmem, hnone⟩ := drop_mem_jobs.mp hj
          exact hdeleted hmem hnone
        | put spec => exact hset spec (put_mem_jobs.mp hj)
      rw [hflows hj, if_pos hfailing]
    · cases hjobs : g.jobs specs with
      | nil => rfl
      | cons j rest =>
        rw [hjobs] at hkey
        exact afterJobs_others (hprogram (hjobs ▸ List.mem_cons_self)) hf hkey
  · obtain ⟨hjob, hleft⟩ := turns_faultless settings.program hf turn hturn
    have hok := FlowJob.perform_ok_iff (hprogram hjob) hleft turn.1
    rw [reportOf]
    cases hresult : (turn.1.perform settings.program turn.2).1 with
    | ok _ => exact iff_of_false Bool.false_ne_true (hok.mp hresult)
    | error fault =>
      rw [hresult] at hok
      refine iff_of_true rfl (by_contra fun hnot => ?_)
      cases hok.mpr hnot

/-- Whatever has happened to a gateway, to its balancer and to its host, and whichever commands fail
when flows are set: the record has the keys that are wanted; each flow on the host is as its own job
has it, unless its command fails, and all others stay; and one fault is reported for each job whose
flow command fails, or the refresh of the virtual addresses right after it. -/
theorem set_flows_independent (settings : Settings) (fates : Fates) (happenings : List Happening)
    (failing : Command → Bool) (specs : List FlowSpec) :
    let g := refusing (onHost (afterHappenings settings fates happenings)) failing
    Independent settings.program specs g (setFlows (Balancer.engine settings) specs g) := by
  intro g
  have hconsistent := (afterHappenings_consistentReadable settings fates happenings).consistent
  have hgenuine := afterHappenings_ownNamed settings fates happenings
  refine setFlows_independent rfl (fun key hkey => ?_) (fun spec hservice => ?_) fun n hn => ?_
  · obtain ⟨spec, hspec⟩ := exists_of_mem hkey
    obtain ⟨l, hl⟩ := exists_of_mem (hconsistent.served key spec hspec)
    exact ⟨spec, l, hspec, (hconsistent.keys key spec hspec).symm, hl⟩
  · obtain ⟨l, hl⟩ := exists_of_mem hservice
    exact ⟨l, hl, hgenuine.name hl⟩
  · obtain ⟨l, hl⟩ := exists_of_mem hn
    exact hgenuine.program hl

end Failing

end Gateway
end VipSteering
