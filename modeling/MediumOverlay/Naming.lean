import MediumOverlay.Android.Models
import MediumOverlay.HomeNode.Registration
import MediumOverlay.Netstack.VirtualNetwork

/-!
# The name of a service

The programs compute the name of a service independently: the node for its TLS
certificate, the command line for the name it verifies and the address it prints, the
network stack for DNS, and the two apps.  All of them normalize one text in the same way.
They differ in the text.  The command line prints the id as it is, and an app takes the
id where the label says nothing to it.
-/

namespace MediumOverlay

variable (lowercase : Lowercase)

/-- `service_hostname` of the node. -/
def ServiceConfig.serviceHostname (service : ServiceConfig) : String :=
  normalizeHostnameLabel lowercase (service.label.getD service.id) ++ ".medium"

namespace Cli

/-- `service_medium_hostname`. -/
def serviceMediumHostname (service : Option PublishedService) (serviceId : String) : String :=
  normalizeHostnameLabel lowercase ((service.bind PublishedService.label).getD serviceId)
    ++ ".medium"

/-- `service_endpoint`. -/
def serviceEndpoint (device : DeviceRecord) (service : PublishedService) : String :=
  match service.kind with
  | .http | .https => "https://" ++ service.id ++ ".medium/"
  | .ssh => "ssh://" ++ service.userName.getD "overlay" ++ "@" ++ device.name

end Cli

namespace Apple

/-- `displayName`. -/
def displayName (service : PublishedService) : String :=
  match service.label with
  | some label => if label.isEmpty then service.id else label
  | none => service.id

/-- `hostnameLabel`. -/
def hostnameLabel (value : String) : String :=
  let output := Slug.collect '-' [] false ((lowercase.swift value).toList.map keptChar)
  match Slug.trimEnd '-' (output.dropWhile (· = '-')) with
  | [] => "service"
  | trimmed => .ofList trimmed

/-- `mediumHostname`. -/
def mediumHostname (service : PublishedService) : String :=
  hostnameLabel lowercase (displayName service) ++ ".medium"

theorem hostnameLabel_eq (value : String) :
    hostnameLabel lowercase value = normalizeHostnameLabel lowercase value := by
  have hslug : Slug.trimEnd '-' ((Slug.collect '-' [] false
        ((lowercase.swift value).toList.map keptChar)).dropWhile (· = '-'))
      = Slug.slug '-' ((value.toList.flatMap lowercase.rust).map keptChar) := by
    rw [Slug.dropWhile_collect (dash_notMem_map_keptChar _),
      (lowercase.swift_same value).map_keptChar, Slug.slug]
  unfold hostnameLabel normalizeHostnameLabel
  cases hlabel : Slug.slug '-' ((value.toList.flatMap lowercase.rust).map keptChar) with
  | nil => simp only [hslug, hlabel]
  | cons c cs => simp only [hslug, hlabel]

end Apple

/-- The label says nothing to the Android app. -/
def isIgnored (label : String) : Bool := Android.isBlank label || label = "null"

variable {lowercase} {service : PublishedService}

theorem parseService_label {label : String} (h : service.label = some label) :
    (Android.parseService service).label = if isIgnored label then none else some label := by
  simp [Android.parseService, Android.nullableStringValue, h, isIgnored]

/-- The text that the Android app names a service by. -/
def appLabel (service : PublishedService) : String :=
  match service.label with
  | none => service.id
  | some label => if isIgnored label then service.id else label

theorem parseService_label_getD (service : PublishedService) :
    (Android.parseService service).label.getD service.id = appLabel service := by
  unfold appLabel
  cases hlabel : service.label with
  | none => simp [Android.parseService, Android.nullableStringValue, hlabel]
  | some label =>
    rw [parseService_label hlabel]
    dsimp only
    split <;> rfl

/-- The app does not look at the label a second time. -/
theorem displayName_parseService (service : PublishedService) :
    (Android.parseService service).displayName = appLabel service := by
  have hlabel : (Android.parseService service).label.filter (fun label => !Android.isBlank label)
      = (Android.parseService service).label := by
    simp only [Android.parseService, Android.nullableStringValue]
    split
    next => rfl
    next hvalue =>
      refine Option.filter_some_pos ?_
      simp only [Bool.or_eq_true, not_or, Bool.not_eq_true] at hvalue
      simp [hvalue.1.2]
  rw [← parseService_label_getD, Android.PublishedService.displayName, hlabel]
  rfl

/-- The address that is printed for a service names it exactly if its id is its name. -/
theorem endpoint_eq_iff {device : DeviceRecord} {name : String} (hkind : service.kind ≠ .ssh) :
    Cli.serviceEndpoint device service = "https://" ++ (name ++ ".medium") ++ "/"
      ↔ service.id = name := by
  have hprinted : Cli.serviceEndpoint device service
      = "https://" ++ (service.id ++ ".medium") ++ "/" := by
    unfold Cli.serviceEndpoint
    refine String.toList_inj.mp ?_
    cases hk : service.kind with
    | http => simp
    | https => simp
    | ssh => exact absurd hk hkind
  rw [hprinted]
  simp

/-- The Android app has the name of a label that it ignores exactly if the id has that
name too. -/
theorem appLabel_iff :
    normalizeHostnameLabel lowercase (appLabel service)
        = normalizeHostnameLabel lowercase (service.label.getD service.id)
      ↔ ∀ label, service.label = some label → isIgnored label = true →
        normalizeHostnameLabel lowercase service.id = normalizeHostnameLabel lowercase label := by
  unfold appLabel
  cases service.label with
  | none => simp
  | some label =>
    by_cases hignored : isIgnored label = true
    · simp [hignored]
    · simp [hignored]

/-- The other app ignores an empty label only. -/
theorem displayName_of_appLabel
    (h : normalizeHostnameLabel lowercase (appLabel service)
      = normalizeHostnameLabel lowercase (service.label.getD service.id)) :
    normalizeHostnameLabel lowercase (Apple.displayName service)
      = normalizeHostnameLabel lowercase (service.label.getD service.id) := by
  rw [appLabel_iff] at h
  unfold Apple.displayName
  cases hlabel : service.label with
  | none => rfl
  | some label =>
    by_cases hempty : label.isEmpty = true
    · have hblank : isIgnored label = true := by
        rw [String.isEmpty_iff] at hempty
        subst hempty
        decide
      simpa [hempty] using h label hlabel hblank
    · simp [hempty]

/-- All programs name a service alike exactly if two things hold.  Unless it is for SSH,
its id is the name, as the command line prints the id.  And where it has a label that
the Android app ignores, its id gives the same name as the label. -/
theorem names_agree_iff (lowercase : Lowercase) (device : DeviceRecord) (config : ServiceConfig)
    (service : PublishedService) (hid : service.id = config.id)
    (hlabel : service.label = config.label) :
    (Cli.serviceMediumHostname lowercase (some service) service.id
          = config.serviceHostname lowercase
        ∧ (service.kind ≠ .ssh → Cli.serviceEndpoint device service
          = "https://" ++ config.serviceHostname lowercase ++ "/")
        ∧ Netstack.hostnameOf lowercase ⟨service.id, service.label, service.kind.asStr⟩
          = config.serviceHostname lowercase
        ∧ Netstack.hostnameOf lowercase ⟨(Android.parseService service).id,
            (Android.parseService service).label, (Android.parseService service).kind⟩
          = config.serviceHostname lowercase
        ∧ (Android.parseService service).hostname lowercase = config.serviceHostname lowercase
        ∧ Apple.mediumHostname lowercase service = config.serviceHostname lowercase)
      ↔ (service.kind ≠ .ssh →
          service.id = normalizeHostnameLabel lowercase (service.label.getD service.id))
        ∧ ∀ label, service.label = some label → isIgnored label = true →
          normalizeHostnameLabel lowercase service.id
            = normalizeHostnameLabel lowercase label := by
  have hnode : config.serviceHostname lowercase
      = normalizeHostnameLabel lowercase (service.label.getD service.id) ++ ".medium" := by
    rw [ServiceConfig.serviceHostname, hid, hlabel]
  have hcli : Cli.serviceMediumHostname lowercase (some service) service.id
      = normalizeHostnameLabel lowercase (service.label.getD service.id) ++ ".medium" := rfl
  have hdns : Netstack.hostnameOf lowercase ⟨service.id, service.label, service.kind.asStr⟩
      = normalizeHostnameLabel lowercase (service.label.getD service.id) ++ ".medium" := rfl
  have happDns : Netstack.hostnameOf lowercase ⟨(Android.parseService service).id,
        (Android.parseService service).label, (Android.parseService service).kind⟩
      = normalizeHostnameLabel lowercase (appLabel service) ++ ".medium" := by
    rw [← parseService_label_getD]
    rfl
  have happ : (Android.parseService service).hostname lowercase
      = normalizeHostnameLabel lowercase (appLabel service) ++ ".medium" := by
    rw [Android.PublishedService.hostname, Android.serviceHostname_eq, displayName_parseService]
  have happle : Apple.mediumHostname lowercase service
      = normalizeHostnameLabel lowercase (Apple.displayName service) ++ ".medium" := by
    rw [Apple.mediumHostname, Apple.hostnameLabel_eq]
  have hurl : (service.kind ≠ .ssh → Cli.serviceEndpoint device service = "https://"
        ++ (normalizeHostnameLabel lowercase (service.label.getD service.id) ++ ".medium") ++ "/")
      ↔ (service.kind ≠ .ssh →
        service.id = normalizeHostnameLabel lowercase (service.label.getD service.id)) :=
    imp_congr_right fun hkind => endpoint_eq_iff hkind
  rw [hnode, hcli, hdns, happDns, happ, happle, hurl, ← appLabel_iff]
  simp only [String.append_left_inj, true_and]
  constructor
  · rintro ⟨hprinted, happ, -⟩
    exact ⟨hprinted, happ⟩
  · rintro ⟨hprinted, happ⟩
    exact ⟨hprinted, happ, happ, displayName_of_appLabel happ⟩

/-! ### A service without a label -/

def unlabelledConfig (id : String) : ServiceConfig :=
  ⟨id, "https", none, "127.0.0.1:8080", none, true⟩

def unlabelledService (id : String) : PublishedService :=
  ⟨id, .https, 1, none, "127.0.0.1:8080", none⟩

theorem names_agree_iff_web :
    Cli.serviceEndpoint ⟨"node-1", "node-1", none, []⟩ (unlabelledService "web")
        = "https://" ++ (unlabelledConfig "web").serviceHostname asciiLowercase ++ "/"
      ∧ (Android.parseService (unlabelledService "web")).hostname asciiLowercase
        = (unlabelledConfig "web").serviceHostname asciiLowercase := by
  have hagree := (names_agree_iff asciiLowercase ⟨"node-1", "node-1", none, []⟩
    (unlabelledConfig "web") (unlabelledService "web") rfl rfl).mpr
    ⟨by decide +kernel, by simp [unlabelledService]⟩
  exact ⟨hagree.2.1 (by decide), hagree.2.2.2.2.1⟩

/-- The command line prints `svc_web.medium` for a service whose certificate is for
`svc-web.medium`. -/
theorem printed_name_differs :
    (unlabelledConfig "svc_web").serviceHostname asciiLowercase = "svc-web.medium"
      ∧ Cli.serviceEndpoint ⟨"node-1", "node-1", none, []⟩ (unlabelledService "svc_web")
        = "https://svc_web.medium/" := by
  decide +kernel

end MediumOverlay
