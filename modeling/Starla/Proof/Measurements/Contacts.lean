import Starla.Impl.Measurements.Http
import Starla.Impl.Measurements.Ntp
import Starla.Impl.Measurements.Ping
import Starla.Impl.Measurements.Traceroute
import Starla.Proof.Measurements.Address

/-!
# Whom a measurement contacts

For each of the six kinds, the contacts of a run, whatever the network does:

* a ping's and a traceroute's go to the target they are given
  (`all_executePing`, `all_traceRun`);
* evtdig's and sslgetcert's are checked one by one (`all_run`,
  `all_sslgetcert`), evtdig's over UDP with `--resolv` excepted;
* an HTTP fetch's and an NTP query's are just the destination their URL or
  target gives (`log_fetch`, `mem_log_executeNtpQuery`): neither is checked.
-/

namespace Starla.Proof.Measurements

open Starla.Framework Starla.Impl.Measurements

/-! ## Ping -/

theorem all_sendRequests {dest : SocketAddr} {io : PingIo} (left i : Nat) :
    (sendRequests dest io left i).All fun c => c.ip = dest.ip := by
  induction left generalizing i with
  | zero => exact Logged.all_pure _
  | succ left ih =>
    rw [sendRequests]
    cases io.echoRequest i with
    | error e => exact Logged.all_pure _
    | ok _ => exact Logged.all_bind.mpr ⟨Logged.all_emit.mpr rfl, ih (i + 1)⟩

theorem all_executePing (config : PingConfig) (io : PingIo) :
    (executePing config io).All fun c => c.ip = config.target := by
  rw [executePing]
  cases io.socket with
  | error e => exact Logged.all_pure _
  | ok _ =>
    cases (if config.ttl > 0 then io.setTtl else .ok ()) with
    | error e => exact Logged.all_pure _
    | ok _ =>
      cases io.connect with
      | error e => exact Logged.all_pure _
      | ok _ => exact all_sendRequests _ _

/-! ## Traceroute -/

theorem ip_probeDest (spec : RunSpec) (seq : UInt16) : (probeDest spec seq).ip = spec.target := by
  rw [probeDest]
  cases spec.opts.protocol <;> rfl

theorem all_sendProbe (spec : RunSpec) (probe : ProbeIo) :
    (sendProbe spec probe).All fun c => c.ip = spec.target := by
  rw [sendProbe]
  cases (if spec.opts.protocol = .ICMP then .ok () else probe.socket) with
  | error e => exact Logged.all_pure _
  | ok _ =>
    refine Logged.all_bind.mpr ⟨Logged.all_emit.mpr (ip_probeDest spec probe.seq), ?_⟩
    cases probe.sendTo with
    | ok _ => exact Logged.all_pure _
    | error e => exact Logged.all_pure _

theorem all_sendProbes (spec : RunSpec) (probes : List ProbeIo) :
    (sendProbes spec probes).All fun c => c.ip = spec.target := by
  induction probes with
  | nil => exact Logged.all_pure _
  | cons probe probes ih =>
    refine Logged.all_bind.mpr ⟨all_sendProbe spec probe, ?_⟩
    cases (sendProbe spec probe).value with
    | error e => exact Logged.all_pure _
    | ok _ => exact ih

theorem all_traceRun (spec : RunSpec) (io : TraceIo) :
    (traceRun spec io).All fun c => c.ip = spec.target := by
  rw [traceRun]
  cases io.source with
  | error e => exact Logged.all_pure _
  | ok _ =>
    cases io.replySocket with
    | error e => exact Logged.all_pure _
    | ok _ =>
      cases io.setup with
      | error e => exact Logged.all_pure _
      | ok _ =>
        cases (if spec.opts.protocol = .TCP then io.tcpSocket else .ok ()) with
        | error e => exact Logged.all_pure _
        | ok _ => exact all_sendProbes spec io.probes

/-! ## evtdig -/

section Dns

variable (var : Option String) (cfg : DnsConfig)

/-- A contact evtdig may make: to an allowed address, or to a resolver it asks
over UDP. -/
def DnsMayContact (c : Contact) : Prop :=
  (cfg.resolv = true ∧ cfg.tcp = false) ∨ cfg.disableCheckAddr = true ∨
    checkAddrDisabled var = true ∨ ¬ Refused c.ip

theorem addressAllowed_iff (addr : SocketAddr) :
    Dns.addressAllowed var addr cfg = true ↔
      cfg.disableCheckAddr = true ∨ checkAddrDisabled var = true ∨ ¬ Refused addr.ip := by
  rw [Dns.addressAllowed, Bool.or_eq_true, Bool.or_eq_true, or_assoc, Bool.not_eq_true',
    ← Bool.not_eq_true, dns_refused_iff]

variable {var cfg} {server : String}

theorem all_udpQuery (htcp : cfg.tcp = false) (io : Dns.AttemptIo) (addrs : List SocketAddr) (i : Nat)
    (dst : Dns.Dst) (last : Option (IoResult Unit)) :
    (Dns.udpQuery var cfg server io addrs i dst last).All (DnsMayContact var cfg) := by
  induction addrs generalizing i dst last with
  | nil =>
    rcases last with _ | _ | _
    all_goals exact Logged.all_pure _
  | cons addr addrs ih =>
    rw [Dns.udpQuery]
    cases (io.udp i).bind with
    | error e => exact Logged.all_pure _
    | ok _ =>
      refine Logged.all_ite (fun _ => Logged.all_pure _) fun hallowed => ?_
      cases (io.udp i).connect with
      | error e => exact Logged.all_pure _
      | ok _ =>
        refine Logged.all_ite (fun _ => Logged.all_pure _) fun _ => ?_
        refine Logged.all_bind.mpr ⟨Logged.all_emit.mpr ?_, ih _ _ _⟩
        by_cases hresolv : cfg.resolv = true
        · exact .inl ⟨hresolv, htcp⟩
        · exact .inr ((addressAllowed_iff var cfg addr).mp (by simpa [hresolv] using hallowed))

theorem all_udpAttempt (htcp : cfg.tcp = false) (io : Dns.AttemptIo) :
    (Dns.udpAttempt var cfg server io).All (DnsMayContact var cfg) := by
  rw [Dns.udpAttempt]
  cases Dns.resolve server cfg.port (Dns.family cfg) io.answer with
  | error e => exact Logged.all_pure _
  | ok addrs => exact all_udpQuery htcp io addrs 0 _ _

theorem all_tcpAttempt (io : Dns.AttemptIo) :
    (Dns.tcpAttempt var cfg server io).All (DnsMayContact var cfg) := by
  rw [Dns.tcpAttempt]
  rcases Dns.resolve server cfg.port (Dns.family cfg) io.answer with _ | _ | ⟨addr, addrs⟩
  · exact Logged.all_pure _
  · exact Logged.all_pure _
  · refine Logged.all_ite (fun _ => Logged.all_pure _) fun hallowed => ?_
    refine Logged.all_bind.mpr ⟨Logged.all_emit.mpr ?_, ?_⟩
    · exact .inr ((addressAllowed_iff var cfg addr).mp (by simpa using hallowed))
    · cases io.tcp.connect with
      | timedOut => exact Logged.all_pure _
      | failed e => exact Logged.all_pure _
      | connected => exact Logged.all_ite (fun _ => Logged.all_pure _) fun _ => Logged.all_pure _

theorem all_attempt (io : Dns.AttemptIo) :
    (Dns.attempt var cfg server io).All (DnsMayContact var cfg) := by
  refine Logged.all_ite (fun _ => all_tcpAttempt io) fun htcp => ?_
  exact all_udpAttempt (Bool.eq_false_iff.mpr htcp) io

theorem all_query (sub : Option (Nat × Nat)) (io : Nat → Dns.AttemptIo) (left retry : Nat) :
    (Dns.query var cfg server sub io left retry).All (DnsMayContact var cfg) := by
  induction left generalizing retry with
  | zero => exact Logged.all_bind.mpr ⟨all_attempt _, Logged.all_pure _⟩
  | succ left ih =>
    exact Logged.all_bind.mpr ⟨all_attempt _,
      Logged.all_ite (fun _ => ih _) fun _ => Logged.all_pure _⟩

theorem all_queries (io : Dns.DnsIo) (submax : Nat) (servers : List String) (i : Nat) :
    (Dns.queries var cfg io submax servers i).All (DnsMayContact var cfg) := by
  induction servers generalizing i with
  | nil => exact Logged.all_pure _
  | cons ns rest ih =>
    exact Logged.all_bind.mpr ⟨all_query _ _ _ _,
      Logged.all_bind.mpr ⟨ih (i + 1), Logged.all_pure _⟩⟩

/-- Every query of a run goes to an address evtdig may ask. -/
theorem all_run (var : Option String) (cfg : DnsConfig) (io : Dns.DnsIo) :
    (Dns.run var cfg io).All (DnsMayContact var cfg) := by
  rw [Dns.run]
  cases io.name with
  | none => exact Logged.all_pure _
  | some name =>
    refine Logged.all_ite (fun _ => ?_) fun _ => ?_
    · exact Logged.all_bind.mpr ⟨all_query _ _ _ _, Logged.all_pure _⟩
    · exact Logged.all_ite (fun _ => Logged.all_pure _) fun _ => all_queries io _ _ 0

end Dns

/-! ## evsslgetcert -/

theorem all_connectTo {config : TlsConfig} (hcheck : config.checkAddr = true) (io : Tls.TlsIo)
    (addrs : List IpAddr) (i : Nat) (dst : Option IpAddr) (result : String) :
    (Tls.connectTo config io addrs i dst result).All fun c => ¬ Refused c.ip := by
  induction addrs generalizing i dst result with
  | nil => exact Logged.all_pure _
  | cons ip addrs ih =>
    refine Logged.all_ite (fun _ => Logged.all_pure _) fun hallowed => ?_
    refine Logged.all_bind.mpr ⟨Logged.all_emit.mpr ?_, ?_⟩
    · exact (tls_addrAllowed_iff ip).mp (by simpa [hcheck] using hallowed)
    · cases io.connect i with
      | connected => exact Logged.all_pure _
      | failed e => exact ih _ _ _
      | timedOut => exact ih _ _ _

theorem all_sslgetcert {config : TlsConfig} (hcheck : config.checkAddr = true) (io : Tls.TlsIo) :
    (Tls.sslgetcert config io).All fun c => ¬ Refused c.ip := by
  rw [Tls.sslgetcert]
  cases Tls.resolve config.target config.af io.answer with
  | error e => exact Logged.all_pure _
  | ok addrs => exact all_connectTo hcheck io addrs 0 none ""

/-! ## evhttpget -/

theorem log_fetch (url : Http.HttpUrl) (af : UInt8) (io : Http.HttpIo) :
    (Http.fetch url af io).log =
      (Http.destination url af io).toOption.toList.map Contact.connection := by
  rw [Http.fetch]
  cases Http.destination url af io with
  | error e => rfl
  | ok dst => rfl

theorem log_execute_of_ok {config : HttpConfig} {io : Http.HttpIo} {url : Http.HttpUrl}
    (h : Http.parseHttpUrl config.url = .ok url) :
    (Http.execute config io).log = (Http.fetch url config.af io).log := by
  rw [Http.execute, h]
  dsimp only
  rw [Logged.log_bind]
  cases (Http.fetch url config.af io).value <;> simp

theorem log_execute_of_error {config : HttpConfig} {io : Http.HttpIo} {e : String}
    (h : Http.parseHttpUrl config.url = .error e) :
    (Http.execute config io).log = (io.client config).1.map Contact.connection := by
  rw [Http.execute, h]
  rfl

/-! ## evntp -/

theorem log_exchanges (dest : SocketAddr) (io : Ntp.NtpIo) (left i : Nat) :
    (Ntp.exchanges dest io left i).log = List.replicate left (.packet dest) := by
  induction left generalizing i with
  | zero => rfl
  | succ left ih =>
    rw [Ntp.exchanges, Logged.log_bind, Logged.log_bind, ih, List.replicate_succ]
    simp

theorem mem_log_executeNtpQuery {config : NtpConfig} {io : Ntp.NtpIo} {c : Contact} :
    c ∈ (Ntp.executeNtpQuery config io).log ↔
      io.bind = .ok () ∧ 0 < config.count ∧ c = .packet ⟨config.target, config.port⟩ := by
  rw [Ntp.executeNtpQuery]
  cases io.bind with
  | error e => simp
  | ok _ => simp [log_exchanges, UInt32.lt_iff_toNat_lt, Nat.pos_iff_ne_zero]

end Starla.Proof.Measurements
