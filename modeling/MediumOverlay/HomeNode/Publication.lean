import MediumOverlay.HomeNode.Access

/-!
# What a node publishes and what it serves

A node registers the services that its configuration enables, and its proxy has a table
of them.  The ids are the same (`mem_published_iff`).  The kind of a service is free text,
and the two read it differently: the registration compares it as it stands, the proxy in
lower case, and each has a default for what it does not know.  `kind_agrees_iff` says for
which texts they agree.  A client goes by the kind that is published.
-/

namespace MediumOverlay

/-- The kind that is published is that of the mode. -/
def Agrees (kind : ServiceKind) (mode : ServiceTlsMode) : Prop :=
  (kind = .http ↔ mode = .http) ∧ (kind = .https ↔ mode = .none) ∧ (kind = .ssh ↔ mode = .raw)

instance (kind : ServiceKind) (mode : ServiceTlsMode) : Decidable (Agrees kind mode) :=
  inferInstanceAs (Decidable ((_ ↔ _) ∧ (_ ↔ _) ∧ (_ ↔ _)))

variable {kind : String}

theorem publishedKind_eq_http_iff : NodeConfig.publishedKind kind = .http ↔ kind = "http" := by
  rw [NodeConfig.publishedKind]
  split_ifs with hhttp hhttps hssh <;> simp [hhttp]

theorem publishedKind_eq_ssh_iff : NodeConfig.publishedKind kind = .ssh ↔ kind = "ssh" := by
  rw [NodeConfig.publishedKind]
  split_ifs with hhttp hhttps hssh
  · simp [hhttp]
  · simp [hhttps]
  · simp [hssh]
  · simp [hssh]

theorem ofKind_eq_http_iff : ServiceTlsMode.ofKind kind = .http ↔ kind = "http" := by
  rw [ServiceTlsMode.ofKind]
  split_ifs with hhttp hssh <;> simp [hhttp]

theorem ofKind_eq_raw_iff : ServiceTlsMode.ofKind kind = .raw ↔ kind = "ssh" := by
  rw [ServiceTlsMode.ofKind]
  split_ifs with hhttp hssh
  · simp [hhttp]
  · simp [hssh]
  · simp [hssh]

/-- Two of the three kinds and modes decide on the third. -/
theorem agrees_iff {kind : ServiceKind} {mode : ServiceTlsMode} :
    Agrees kind mode ↔ (kind = .http ↔ mode = .http) ∧ (kind = .ssh ↔ mode = .raw) := by
  cases kind <;> cases mode <;> decide

/-- The texts that are read in the same way: if one is `http` or `ssh` in lower case, it is
so as it stands. -/
theorem kind_agrees_iff :
    Agrees (NodeConfig.publishedKind kind) (.ofKind (Str.toAsciiLowercase kind))
      ↔ (Str.toAsciiLowercase kind = "http" → kind = "http")
        ∧ (Str.toAsciiLowercase kind = "ssh" → kind = "ssh") := by
  rw [agrees_iff, publishedKind_eq_http_iff, publishedKind_eq_ssh_iff, ofKind_eq_http_iff,
    ofKind_eq_raw_iff]
  refine and_congr ⟨Iff.mpr, fun h => ⟨?_, h⟩⟩ ⟨Iff.mpr, fun h => ⟨?_, h⟩⟩
  · rintro rfl
    decide
  · rintro rfl
    decide

section Table

variable {serverTls : ServiceConfig → Except AnyhowError ServerConfig} {cfg : NodeConfig}
  {table : ProxyServices} {text : AddrText} {localIps : List IpAddr}

theorem tlsMode_of_proxyService {service : ServiceConfig} {entry : ProxyService}
    (h : proxyService serverTls service = .ok entry) :
    entry.tlsMode = .ofKind (Str.toAsciiLowercase service.kind) := by
  rw [proxyService] at h
  split at h
  · cases h
    rfl
  · cases hconfig : serverTls service with
    | error error =>
      rw [hconfig] at h
      cases h
    | ok config =>
      rw [hconfig] at h
      cases h
      rfl

/-- The services of a registration are those that the configuration enables. -/
theorem mem_registered_iff {published : PublishedService} :
    published ∈ (cfg.buildRegistration text localIps).services
      ↔ ∃ service ∈ cfg.services, service.enabled = true
        ∧ published = ⟨service.id, NodeConfig.publishedKind service.kind, 1, service.label,
          NodeConfig.normalizeTargetAddr service.target, service.userName⟩ := by
  simp only [NodeConfig.buildRegistration, List.mem_map, List.mem_filter, eq_comm, and_assoc]

theorem mem_published_iff (prepared : proxyServicesFromConfig serverTls cfg = .ok table)
    {id : String} :
    id ∈ (cfg.buildRegistration text localIps).services.map PublishedService.id ↔ id ∈ table := by
  rw [← AList.lookup_isSome, List.mem_map]
  simp only [mem_registered_iff]
  constructor
  · rintro ⟨_, ⟨service, hmem, henabled, rfl⟩, rfl⟩
    exact isSome_lookup prepared hmem henabled
  · intro hsome
    obtain ⟨entry, hentry⟩ := Option.isSome_iff_exists.mp hsome
    obtain ⟨service, hmem, henabled, rfl, -⟩ := exists_config prepared hentry
    exact ⟨_, ⟨service, hmem, henabled, rfl⟩, rfl⟩

/-- The entry of a service, if no other has its id. -/
theorem tlsMode_of_lookup (distinct : (cfg.services.map ServiceConfig.id).Nodup)
    (prepared : proxyServicesFromConfig serverTls cfg = .ok table) {service : ServiceConfig}
    (hmem : service ∈ cfg.services) {entry : ProxyService}
    (hentry : table.lookup service.id = some entry) :
    entry.tlsMode = .ofKind (Str.toAsciiLowercase service.kind) := by
  obtain ⟨other, hother, -, hid, hok⟩ := exists_config prepared hentry
  rw [List.inj_on_of_nodup_map distinct hmem hother hid.symm]
  exact tlsMode_of_proxyService hok

/-- A node serves what it publishes, and in the way it publishes it, exactly if no kind is
`http` or `ssh` but for the case. -/
theorem published_as_served_iff (distinct : (cfg.services.map ServiceConfig.id).Nodup)
    (prepared : proxyServicesFromConfig serverTls cfg = .ok table) :
    ((∀ id, id ∈ (cfg.buildRegistration text localIps).services.map PublishedService.id
          ↔ id ∈ table)
        ∧ ∀ published ∈ (cfg.buildRegistration text localIps).services,
          ∃ entry, table.lookup published.id = some entry ∧ Agrees published.kind entry.tlsMode)
      ↔ ∀ service ∈ cfg.services, service.enabled = true →
        (Str.toAsciiLowercase service.kind = "http" → service.kind = "http")
          ∧ (Str.toAsciiLowercase service.kind = "ssh" → service.kind = "ssh") := by
  simp only [← kind_agrees_iff]
  constructor
  · rintro ⟨-, hkinds⟩ service hmem henabled
    obtain ⟨entry, hentry, hagrees⟩ :=
      hkinds _ (mem_registered_iff.mpr ⟨service, hmem, henabled, rfl⟩)
    rw [← tlsMode_of_lookup distinct prepared hmem hentry]
    exact hagrees
  · refine fun hkinds => ⟨fun id => mem_published_iff prepared, fun published hpublished => ?_⟩
    obtain ⟨service, hmem, henabled, rfl⟩ := mem_registered_iff.mp hpublished
    obtain ⟨entry, hentry⟩ :=
      Option.isSome_iff_exists.mp (isSome_lookup prepared hmem henabled)
    refine ⟨entry, hentry, ?_⟩
    rw [tlsMode_of_lookup distinct prepared hmem hentry]
    exact hkinds service hmem henabled

end Table

/-! ### A kind in capitals -/

/-- An identity for every service. -/
def anyServerTls (_ : ServiceConfig) : Except AnyhowError ServerConfig := .ok ⟨"cert", "key"⟩

theorem published_as_served_iff_sample :
    (sampleConfig.services.map ServiceConfig.id).Nodup
      ∧ ∃ table, proxyServicesFromConfig anyServerTls sampleConfig = .ok table
        ∧ ∀ id, id ∈ (sampleConfig.buildRegistration ⟨fun _ => none, fun _ => none, fun _ => ""⟩
          []).services.map PublishedService.id ↔ id ∈ table := by
  have hdistinct : (sampleConfig.services.map ServiceConfig.id).Nodup := by decide
  have hprepared : proxyServicesFromConfig anyServerTls sampleConfig = .ok _ := rfl
  exact ⟨hdistinct, _, hprepared, ((published_as_served_iff hdistinct hprepared).mpr
    (by decide)).1⟩

def capitalConfig : NodeConfig :=
  { sampleConfig with services := [⟨"svc_web", "HTTP", none, "127.0.0.1:8080", none, true⟩] }

/-- The service is published with TLS of its own, and the proxy ends TLS for it. -/
theorem capital_kind_differs :
    (capitalConfig.buildRegistration ⟨fun _ => none, fun _ => none, fun _ => ""⟩
        []).services.map (fun published => (published.id, published.kind)) = [("svc_web", .https)]
      ∧ ∃ table, proxyServicesFromConfig anyServerTls capitalConfig = .ok table
        ∧ (table.lookup "svc_web").map ProxyService.tlsMode = some .http := by
  exact ⟨by decide, _, rfl, by decide⟩

end MediumOverlay
