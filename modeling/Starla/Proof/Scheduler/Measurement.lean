import Starla.Impl.Scheduler.Measurement
import Starla.Proof.Measurements.Contacts

/-!
# The address check on every path

Whom the run of a job contacts. Ping, traceroute, evtdig and evsslgetcert
contact no refused address (`all_lookUpThenRun`, `all_dns`, `all_tls`);
evhttpget and evntp contact whatever their target stands for (`contacts_http`,
`contacts_ntp`), refused or not.
-/

namespace Starla.Proof.Scheduler

open Starla.Framework Starla.Impl.Controller Starla.Impl.Measurements Starla.Impl.Scheduler
  Starla.Proof.Measurements

/-- evtdig over UDP with `--resolv`, whose server is the probe's own resolver. -/
def AsksOwnResolver : MeasurementSpec → Prop
  | .dns s => s.resolv = true ∧ s.tcp = false
  | _ => False

/-- A contact the address rule lets a run make. -/
def Permitted (spec : MeasurementSpec) (io : RunIo) (c : Contact) : Prop :=
  Refused c.ip → checkAddrDisabled io.disableCheckAddr = true ∨ AsksOwnResolver spec

/-! ## Ping and traceroute -/

theorem addressAllowed_iff (var : Option String) (addr : IpAddr) :
    addressAllowed var addr = true ↔ checkAddrDisabled var = true ∨ ¬ Refused addr := by
  rw [addressAllowed, Bool.or_eq_true, Bool.not_eq_true', ← Bool.not_eq_true, refused_iff]

/-- A ping's or traceroute's measurement contacts the address it is built for. -/
theorem all_execute_of_build {spec : MeasurementSpec} (htarget : spec.target.isSome) {io : RunIo}
    {addr : IpAddr} {m : Measurement} (h : build spec io (some addr) = .ok m) :
    (m.execute io).All fun c => c.ip = addr := by
  cases spec with
  | ping s =>
    rw [build] at h
    split_ifs at h
    obtain rfl := Except.ok.inj h
    exact Logged.all_map.mpr (all_executePing _ _)
  | traceroute s =>
    obtain rfl := Except.ok.inj h
    exact Logged.all_map.mpr (all_traceRun _ _)
  | _ => cases htarget

theorem all_lookUpThenRun {spec : MeasurementSpec} (htarget : spec.target.isSome) (target : String)
    (af : UInt8) (io : RunIo) : (lookUpThenRun spec target af io).All (Permitted spec io) := by
  refine Logged.all_ite (fun _ => Logged.all_pure _) fun _ => ?_
  rcases io.lookup with error | addr
  · dsimp only
    rcases build spec io (some (if af = 4 then .v4 0 else .v6 0)) with e | m
    · exact Logged.all_pure _
    · exact Logged.all_pure _
  · dsimp only
    rcases hbuild : build spec io (some addr) with e | m
    · exact Logged.all_pure _
    · refine Logged.all_ite (fun _ => Logged.all_pure _) fun hallowed => ?_
      refine (all_execute_of_build htarget hbuild).mono fun c hc hrefused => .inl ?_
      rcases (addressAllowed_iff _ addr).mp (by simpa using hallowed) with hdisabled | hok
      · exact hdisabled
      · exact absurd (hc ▸ hrefused) hok

/-! ## evtdig and evsslgetcert -/

theorem all_dns {s : DnsJobSpec} (hs : s.disableCheckAddr = false) (io : RunIo) :
    (Measurement.execute (.dns s) io).All (Permitted (.dns s) io) := by
  refine Logged.all_map.mpr ((all_run _ s io.dns).mono fun c hc hrefused => ?_)
  rcases hc with hresolv | hswitch | hdisabled | hok
  · exact .inr hresolv
  · exact absurd hswitch (by simp [hs])
  · exact .inl hdisabled
  · exact absurd hrefused hok

theorem all_tls (s : TlsJobSpec) (io : RunIo) :
    (Measurement.execute (.tls (TlsConfig.new io.disableCheckAddr s.target s.port s.af s.hostname))
      io).All (Permitted (.tls s) io) := by
  by_cases hdisabled : checkAddrDisabled io.disableCheckAddr = true
  · exact fun _ _ _ => .inl hdisabled
  · have hcheck : (TlsConfig.new io.disableCheckAddr s.target s.port s.af s.hostname).checkAddr = true := by
      simpa [TlsConfig.new] using hdisabled
    exact Logged.all_map.mpr ((all_sslgetcert hcheck io.tls).mono fun c hc hrefused =>
      absurd hrefused hc)

/-! ## evhttpget and evntp -/

/-- The addresses an evhttpget or evntp job's target stands for: the literal it
is, or what its lookup answered first of its family, for evntp else first. -/
inductive Targets (io : RunIo) : MeasurementSpec → IpAddr → Prop
  | httpLiteral {s : HttpJobSpec} {url : Http.HttpUrl} {addr : IpAddr} :
      Http.parseHttpUrl s.url = .ok url → parseIpAddr url.host.toList = some addr →
      ofFamily s.af addr = true → Targets io (.http s) addr
  | httpName {s : HttpJobSpec} {url : Http.HttpUrl} {addrs : List IpAddr} {addr : IpAddr} :
      Http.parseHttpUrl s.url = .ok url → parseIpAddr url.host.toList = none →
      io.http.answer = .ok addrs → addrs.find? (ofFamily s.af) = some addr →
      Targets io (.http s) addr
  /-- A URL that is not plain HTTP: where the HTTPS client connects. -/
  | https {s : HttpJobSpec} {e : String} {dst : SocketAddr} :
      Http.parseHttpUrl s.url = .error e → dst ∈ (io.http.client (httpConfig s)).1 →
      Targets io (.http s) dst.ip
  | ntpLiteral {s : NtpJobSpec} {addr : IpAddr} :
      io.ntp.bind = .ok () → 0 < s.packets → parseIpAddr s.target.toList = some addr →
      Targets io (.ntp s) addr
  | ntpName {s : NtpJobSpec} {addrs : List IpAddr} {addr : IpAddr} :
      io.ntp.bind = .ok () → 0 < s.packets → parseIpAddr s.target.toList = none →
      io.toSocketAddrs = .ok addrs → (addrs.find? (askedFor s.af)).or addrs.head? = some addr →
      Targets io (.ntp s) addr

/-- A literal host is of the other family, or of the one asked for. -/
theorem literal_refused_iff (af : UInt8) (ip : IpAddr) :
    ((af = 4 && ip.isIpv6) || (af = 6 && ip.isIpv4)) = true ↔ ¬ ofFamily af ip = true := by
  by_cases h4 : af = 4
  · subst h4
    cases ip <;> simp [ofFamily, IpAddr.isIpv4, IpAddr.isIpv6]
  · by_cases h6 : af = 6
    · subst h6
      cases ip <;> simp [ofFamily, IpAddr.isIpv4, IpAddr.isIpv6]
    · simp [ofFamily, h4, h6]

theorem destination_iff {s : HttpJobSpec} {url : Http.HttpUrl} {io : RunIo} {addr : IpAddr}
    (hurl : Http.parseHttpUrl s.url = .ok url) :
    (∃ dst, Http.destination url s.af io.http = .ok dst ∧ dst.ip = addr) ↔
      Targets io (.http s) addr := by
  constructor
  · rintro ⟨dst, h, rfl⟩
    unfold Http.destination at h
    split at h
    · rename_i ip hliteral
      split_ifs at h with hother
      obtain rfl := Except.ok.inj h
      exact .httpLiteral hurl hliteral (by_contra fun hfamily => hother ((literal_refused_iff _ _).mpr hfamily))
    · rename_i hliteral
      split at h
      · cases h
      · rename_i addrs hanswer
        split at h
        · rename_i ip hname
          obtain rfl := Except.ok.inj h
          exact .httpName hurl hliteral hanswer hname
        · cases h
  · intro h
    cases h with
    | httpLiteral hurl' hliteral hfamily =>
      obtain rfl := Except.ok.inj (hurl.symm.trans hurl')
      refine ⟨⟨addr, url.port⟩, ?_, rfl⟩
      simp only [Http.destination, hliteral]
      exact if_neg (fun hother => (literal_refused_iff _ _).mp hother hfamily)
    | httpName hurl' hliteral hanswer hname =>
      obtain rfl := Except.ok.inj (hurl.symm.trans hurl')
      exact ⟨⟨addr, url.port⟩, by simp only [Http.destination, hliteral, hanswer, hname], rfl⟩
    | https hurl' => cases hurl.symm.trans hurl'

/-- An evhttpget run contacts what its URL stands for. -/
theorem contacts_http (s : HttpJobSpec) (io : RunIo) (addr : IpAddr) :
    (∃ c ∈ (Measurement.execute (.http (httpConfig s)) io).log, c.ip = addr) ↔
      Targets io (.http s) addr := by
  rw [Measurement.execute, Logged.log_map]
  rcases hurl : Http.parseHttpUrl s.url with e | url
  · have hconfig : Http.parseHttpUrl (httpConfig s).url = .error e := hurl
    rw [log_execute_of_error hconfig]
    constructor
    · rintro ⟨c, hc, rfl⟩
      obtain ⟨dst, hdst, rfl⟩ := List.mem_map.mp hc
      exact .https hurl hdst
    · intro h
      cases h with
      | https hurl' hdst => exact ⟨_, List.mem_map_of_mem hdst, rfl⟩
      | httpLiteral hurl' => cases hurl.symm.trans hurl'
      | httpName hurl' => cases hurl.symm.trans hurl'
  · have hconfig : Http.parseHttpUrl (httpConfig s).url = .ok url := hurl
    rw [log_execute_of_ok hconfig, log_fetch, ← destination_iff hurl]
    change (∃ c ∈ (Http.destination url s.af io.http).toOption.toList.map Contact.connection, _) ↔ _
    rcases Http.destination url s.af io.http with e | dst
    · simp [Except.toOption]
    · simp [Except.toOption, Contact.ip]

theorem resolveTarget_eq_ok_iff {target : String} {af : UInt8} {answer : IoResult (List IpAddr)}
    {addr : IpAddr} :
    resolveTarget target af answer = .ok addr ↔
      parseIpAddr target.toList = some addr ∨
        (parseIpAddr target.toList = none ∧ ∃ addrs, answer = .ok addrs ∧
          (addrs.find? (askedFor af)).or addrs.head? = some addr) := by
  unfold resolveTarget
  rcases parseIpAddr target.toList with _ | ip
  · rcases answer with e | addrs
    · simp
    · simp only [reduceCtorEq, false_or, true_and, Except.ok.injEq, exists_eq_left']
      rcases (addrs.find? (askedFor af)).or addrs.head? with _ | ip <;> simp
  · simp

theorem runJob_ntp (job : MeasurementJob MeasurementSpec) (s : NtpJobSpec) (hs : job.spec = .ntp s) (io : RunIo) :
    runJob job io =
      match resolveTarget s.target s.af io.toSocketAddrs with
      | .error e => pure (.error e)
      | .ok target => Measurement.execute (.ntp ⟨target, s.target, s.timeoutMs.toUInt64, 123, s.packets,
          s.gapMs.toUInt64⟩) io := by
  rw [runJob, hs]
  simp only [MeasurementSpec.target, build]
  rcases resolveTarget s.target s.af io.toSocketAddrs with e | target <;> rfl

/-- An evntp run contacts what its target stands for. -/
theorem contacts_ntp (job : MeasurementJob MeasurementSpec) (s : NtpJobSpec) (hs : job.spec = .ntp s)
    (io : RunIo) (addr : IpAddr) :
    (∃ c ∈ (runJob job io).log, c.ip = addr) ↔ Targets io (.ntp s) addr := by
  have hcontacts : (∃ c ∈ (runJob job io).log, c.ip = addr) ↔
      io.ntp.bind = .ok () ∧ 0 < s.packets ∧
        resolveTarget s.target s.af io.toSocketAddrs = .ok addr := by
    rw [runJob_ntp job s hs]
    rcases resolveTarget s.target s.af io.toSocketAddrs with e | target
    · simp
    · simp only [Measurement.execute, Logged.log_map, mem_log_executeNtpQuery, Except.ok.injEq]
      constructor
      · rintro ⟨c, ⟨hbind, hcount, rfl⟩, rfl⟩
        exact ⟨hbind, hcount, rfl⟩
      · rintro ⟨hbind, hcount, rfl⟩
        exact ⟨_, ⟨hbind, hcount, rfl⟩, rfl⟩
  rw [hcontacts, resolveTarget_eq_ok_iff]
  constructor
  · rintro ⟨hbind, hcount, hliteral | ⟨hliteral, addrs, hanswer, hname⟩⟩
    · exact .ntpLiteral hbind hcount hliteral
    · exact .ntpName hbind hcount hliteral hanswer hname
  · intro h
    cases h with
    | ntpLiteral hbind hcount hliteral => exact ⟨hbind, hcount, .inl hliteral⟩
    | ntpName hbind hcount hliteral hanswer hname =>
      exact ⟨hbind, hcount, .inr ⟨hliteral, _, hanswer, hname⟩⟩

/-! ## Every job -/

/-- The command handler leaves evtdig's own switch for the check off. -/
theorem disableCheckAddr_of_jobOf {cmd : TelnetCommand} {job : MeasurementJob MeasurementSpec}
    {s : DnsJobSpec} (h : jobOf cmd = some job) (hs : job.spec = .dns s) :
    s.disableCheckAddr = false := by
  cases cmd <;> simp only [jobOf, Option.some.injEq, reduceCtorEq] at h <;> subst h <;>
    simp only [dispatchMeasurement, reduceCtorEq, MeasurementSpec.dns.injEq] at hs
  subst hs
  rfl

theorem permitted_iff_of_contacts {spec : MeasurementSpec} {io : RunIo} {log : List Contact}
    (hspec : ¬ AsksOwnResolver spec)
    (hcontacts : ∀ addr, (∃ c ∈ log, c.ip = addr) ↔ Targets io spec addr) :
    (∀ c ∈ log, Permitted spec io c) ↔
      (checkAddrDisabled io.disableCheckAddr = true ∨ ∀ addr, Targets io spec addr → ¬ Refused addr) := by
  constructor
  · intro h
    by_cases hdisabled : checkAddrDisabled io.disableCheckAddr = true
    · exact .inl hdisabled
    · refine .inr fun addr haddr hrefused => ?_
      obtain ⟨c, hc, rfl⟩ := (hcontacts addr).mpr haddr
      exact (h c hc hrefused).elim hdisabled hspec
  · rintro (hdisabled | hok) c hc hrefused
    · exact .inl hdisabled
    · exact absurd hrefused (hok c.ip ((hcontacts c.ip).mp ⟨c, hc, rfl⟩))

/-- A job's run contacts no address the rule refuses exactly when the check is
disabled or its target, of an evhttpget or evntp job, stands for none. -/
theorem contacts_permitted_iff {cmd : TelnetCommand} {job : MeasurementJob MeasurementSpec}
    (h : jobOf cmd = some job) (io : RunIo) :
    (∀ c ∈ (runJob job io).log, Permitted job.spec io c) ↔
      (checkAddrDisabled io.disableCheckAddr = true ∨
        ∀ addr, Targets io job.spec addr → ¬ Refused addr) := by
  have hswitch {s : DnsJobSpec} (hs : job.spec = .dns s) := disableCheckAddr_of_jobOf h hs
  have hntp {s : NtpJobSpec} (hs : job.spec = .ntp s) := contacts_ntp job s hs io
  obtain ⟨msmId, interval, startTime, endTime, spread, spec⟩ := job
  cases spec with
  | ping s => exact ⟨fun _ => .inr (fun _ ht => by cases ht), fun _ => all_lookUpThenRun rfl _ _ io⟩
  | traceroute s => exact ⟨fun _ => .inr (fun _ ht => by cases ht), fun _ => all_lookUpThenRun rfl _ _ io⟩
  | dns s => exact ⟨fun _ => .inr (fun _ ht => by cases ht), fun _ => all_dns (hswitch rfl) io⟩
  | tls s => exact ⟨fun _ => .inr (fun _ ht => by cases ht), fun _ => all_tls s io⟩
  | http s => exact permitted_iff_of_contacts id (contacts_http s io)
  | ntp s => exact permitted_iff_of_contacts id (hntp rfl)

/-- A fetch of a URL, once. -/
def fetchOf (url : String) : HttpSpec where
  msmId := 12027
  url := url
  method := "GET"
  af := 4
  headers := []
  body := none
  maxBodySize := none
  storeHeaders := 1024
  http10 := false
  timeoutMs := none
  spread := none
  schedule := ⟨0, 0, 0⟩

/-- A network where every lookup answers `addrs` and every call succeeds. -/
def answering (addrs : List IpAddr) : RunIo where
  disableCheckAddr := none
  busy := false
  lookup := (addrs.head?.elim (.error .noName) .ok)
  toSocketAddrs := .ok addrs
  paris := some 1
  ping := ⟨.ok (), .ok (), .ok (), fun _ => .ok ()⟩
  trace := ⟨.ok (.v4 0), .ok (), .ok (), .ok (), [⟨1, .ok (), .ok ()⟩]⟩
  dns := ⟨some "", [], fun _ _ => ⟨.ok addrs, fun _ => ⟨.ok (), .ok (), true, .ok ()⟩, true,
    ⟨.connected, true, .reply⟩⟩⟩
  http := ⟨.ok addrs, .connected, fun _ => ([], .ok ⟨4, none, none⟩)⟩
  tls := ⟨.ok addrs, fun _ => .connected⟩
  ntp := ⟨.ok (), fun _ => true⟩

def addressEcho : MeasurementJob MeasurementSpec :=
  ((jobOf (.http (fetchOf "http://ip-echo.ripe.net/"))).get rfl)

/-- The probe's address echo, at an address outside every refused network. -/
theorem contacts_permitted_iff_addressEcho :
    (runJob addressEcho (answering [.v4 0xC100068B])).log = [.connection ⟨.v4 0xC100068B, 80⟩] ∧
      (runJob addressEcho (answering [.v4 0xC100068B])).All
        (Permitted addressEcho.spec (answering [.v4 0xC100068B])) := by
  refine ⟨by decide, (contacts_permitted_iff (Option.some_get rfl).symm _).mpr (.inr fun addr h => ?_)⟩
  have hurl : Http.parseHttpUrl "http://ip-echo.ripe.net/" =
      .ok ⟨"ip-echo.ripe.net", "ip-echo.ripe.net", 80, "/"⟩ := by decide
  cases h with
  | httpLiteral hurl' hliteral hfamily =>
    obtain rfl := Except.ok.inj (hurl.symm.trans hurl')
    have hname : parseIpAddr "ip-echo.ripe.net".toList = none := by decide
    cases hname.symm.trans hliteral
  | httpName hurl' hliteral hanswer hname =>
    obtain rfl := Except.ok.inj hanswer
    obtain rfl : IpAddr.v4 0xC100068B = addr := Option.some.inj hname
    decide
  | https hurl' hdst => cases hdst

/-- The router's page, on the probe's own network. -/
def routerPage : MeasurementJob MeasurementSpec :=
  (jobOf (.http (fetchOf "http://192.168.1.1/"))).get rfl

/-- A fetch from the probe's own network is made. -/
theorem routerPage_is_fetched :
    ¬ ∀ (cmd : TelnetCommand) (job : MeasurementJob MeasurementSpec), jobOf cmd = some job →
      ∀ io, ∀ c ∈ (runJob job io).log, Permitted job.spec io c := by
  intro h
  have hlog : (runJob routerPage (answering [])).log = [.connection ⟨.v4 0xC0A80101, 80⟩] := by decide
  have hpermitted := h _ routerPage (Option.some_get rfl).symm (answering [])
    (.connection ⟨.v4 0xC0A80101, 80⟩) (by rw [hlog]; exact List.mem_singleton_self _)
  rcases hpermitted (by decide) with hdisabled | hresolver
  · exact absurd hdisabled (by decide)
  · exact hresolver

end Starla.Proof.Scheduler
