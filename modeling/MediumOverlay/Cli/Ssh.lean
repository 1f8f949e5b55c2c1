import MediumOverlay.Lib.Str
import MediumOverlay.Protocol.Messages
import MediumOverlay.Transport.Packet

/-!
# `medium ssh`

`medium ssh` looks a device up in the catalogue, asks for a certificate for it, and
runs `ssh`.  That runs `medium proxy ssh` as its `ProxyCommand`, a second process
which looks a device up again and opens a session with it.

The command line of the second process gives it the name and the flags of the first
(`proxyCommand_options`).  The lookups differ, however: the first is by name, the
second by name or id.  So a device that is listed earlier may take the session by its
id, and `ssh_target_iff` says when that happens.
-/

namespace MediumOverlay

/-- `AppState`: what the client keeps and its requests carry. -/
structure AppState where
  deviceName : String
  clientSecret : String
deriving DecidableEq, Repr

/-! ## Options -/

structure SshOptions where
  deviceName : String
  verbose : Bool
  forceRelay : Bool
deriving DecidableEq, Repr

/-- The loop of `parse_proxy_ssh_options`. -/
def parseProxySshArgs (deviceName : Option String) (verbose forceRelay : Bool) :
    List String → Except String SshOptions
  | [] =>
    match deviceName with
    | none => .error "medium proxy ssh requires --device <name>"
    | some deviceName => .ok ⟨deviceName, verbose, forceRelay⟩
  | arg :: args =>
    if arg = "--device" then
      match args with
      | [] => .error "medium proxy ssh --device requires a value"
      | value :: args =>
        if deviceName.isSome then .error "medium proxy ssh accepts one --device value"
        else parseProxySshArgs (some value) verbose forceRelay args
    else if arg = "--verbose" then parseProxySshArgs deviceName true forceRelay args
    else if arg = "--relay" then parseProxySshArgs deviceName verbose true args
    else .error ("unknown medium proxy ssh option: " ++ arg)

/-- `parse_proxy_ssh_options`. -/
def parseProxySshOptions (args : List String) : Except String SshOptions :=
  parseProxySshArgs none false false args

/-! ## The first process -/

/-- The lookups of `run_ssh_command`. -/
def sshDevice (devices : List DeviceRecord) (deviceName : String) :
    Except String (DeviceRecord × SshEndpoint) :=
  match devices.find? fun device => device.name = deviceName with
  | none => .error ("unknown device " ++ deviceName)
  | some device =>
    match device.ssh with
    | none => .error ("device " ++ deviceName ++ " has no SSH endpoint")
    | some ssh => .ok (device, ssh)

/-- The request of `issue_ssh_certificate`. -/
def issueSshCertificate (state : AppState) (nodeId serviceId publicKey : String) :
    Except String SshCertificateRequest :=
  if Str.trim state.clientSecret = "" then
    .error ("client state is missing client_secret; re-run `medium join <invite>` with a fresh "
      ++ "invite from `medium init-control --reconfigure`")
  else .ok ⟨serviceId, some nodeId, state.deviceName, publicKey, state.clientSecret⟩

/-- `run_ssh_command` up to its request for a certificate. -/
def runSshCommand (state : AppState) (devices : List DeviceRecord) (deviceName publicKey : String) :
    Except String SshCertificateRequest :=
  match sshDevice devices deviceName with
  | .error error => .error error
  | .ok (device, ssh) => issueSshCertificate state device.id ssh.serviceId publicKey

/-- `shell_quote`. -/
def shellQuote (value : String) : String :=
  "'" ++ .ofList (value.toList.flatMap fun c =>
    if c = '\'' then ['\'', '\\', '\'', '\''] else [c]) ++ "'"

/-- The `ProxyCommand` of `ssh_command_args`. -/
def proxyCommand (mediumExePath : String) (options : SshOptions) : String :=
  shellQuote mediumExePath ++ " proxy ssh --device " ++ shellQuote options.deviceName
    ++ (if options.verbose then " --verbose" else "")
    ++ (if options.forceRelay then " --relay" else "")

/-! ## From `ssh` to the second process -/

/-- What `ssh` makes of the tokens of a `ProxyCommand`. -/
def percentExpand (token : Char → Option (List Char)) : List Char → Option (List Char)
  | [] => some []
  | ['%'] => none
  | '%' :: c :: cs => do return (← token c) ++ (← percentExpand token cs)
  | c :: cs => do return c :: (← percentExpand token cs)

/-- Where a shell is in a command. -/
inductive ShellMode where
  | plain
  | quoted
  | escaped
deriving DecidableEq, Repr

/-- The words of a shell command, with the word so far.  The characters that this does
not interpret must be quoted. -/
def shellWords : Option (List Char) → ShellMode → List Char → Option (List String)
  | none, .plain, [] => some []
  | some word, .plain, [] => some [.ofList word]
  | _, .quoted, [] => none
  | _, .escaped, [] => none
  | word, .escaped, c :: cs => shellWords (some (word.getD [] ++ [c])) .plain cs
  | word, .quoted, c :: cs =>
    if c = '\'' then shellWords word .plain cs
    else shellWords (some (word.getD [] ++ [c])) .quoted cs
  | word, .plain, c :: cs =>
    if c = '\'' then shellWords (some (word.getD [])) .quoted cs
    else if c = '\\' then shellWords word .escaped cs
    else if c = ' ' then (shellWords none .plain cs).map (word.toList.map String.ofList ++ ·)
    else if c.isAlphanum ∨ c = '-' then shellWords (some (word.getD [] ++ [c])) .plain cs
    else none

/-- The arguments of the process that `ssh` starts for a command. -/
def subprocessArgs (token : Char → Option (List Char)) (command : String) : Option (List String) :=
  do shellWords none .plain (← percentExpand token command.toList)

/-! ## The second process -/

/-- `find_device`. -/
def findDevice (devices : List DeviceRecord) (nameOrId : String) :
    Except AnyhowError DeviceRecord :=
  match devices.find? fun device => device.name = nameOrId ∨ device.id = nameOrId with
  | none => .error (.message ("unknown node " ++ nameOrId))
  | some device => .ok device

/-- The request of `open_session_for_node`. -/
def openSessionForNode (state : AppState) (nodeId : Option String) (serviceId : String) :
    SessionOpenRequest :=
  ⟨serviceId, state.deviceName, nodeId⟩

/-- `run_proxy_device_service` up to its request for a session. -/
def runProxyDeviceService (state : AppState) (device : DeviceRecord) (serviceId : String) :
    Except AnyhowError SessionOpenRequest :=
  match device.services.find? fun service => service.id = serviceId with
  | none => .error (.message ("node " ++ device.name ++ " has no service " ++ serviceId))
  | some _ => .ok (openSessionForNode state (some device.id) serviceId)

/-- `run_proxy_ssh` up to its request for a session. -/
def runProxySsh (state : AppState) (devices : List DeviceRecord) (deviceName : String) :
    Except AnyhowError SessionOpenRequest :=
  match findDevice devices deviceName with
  | .error error => .error error
  | .ok device =>
    match device.ssh with
    | none => .error (.message ("device " ++ deviceName ++ " has no SSH endpoint"))
    | some ssh => runProxyDeviceService state device ssh.serviceId

/-! ## One command line -/

theorem percentExpand_of_notMem (token : Char → Option (List Char)) {cs : List Char}
    (h : '%' ∉ cs) : percentExpand token cs = some cs := by
  induction cs with
  | nil => rfl
  | cons c cs ih =>
    obtain ⟨hc, hcs⟩ := not_or.mp (mt List.mem_cons.mpr h)
    rw [percentExpand, ih hcs]
    · rfl
    · exact fun h => absurd h.symm hc
    · exact fun _ _ h => absurd h.symm hc

/-- A quoted text is read back. -/
theorem shellWords_quoted (word cs rest : List Char) :
    shellWords (some word) .quoted
        (cs.flatMap (fun c => if c = '\'' then ['\'', '\\', '\'', '\''] else [c]) ++ '\'' :: rest)
      = shellWords (some (word ++ cs)) .plain rest := by
  induction cs generalizing word with
  | nil => simp [shellWords]
  | cons c cs ih =>
    by_cases hc : c = '\''
    · -- the quotation is closed around the quote and opened again
      subst hc
      simp [shellWords, ih]
    · simp [shellWords, hc, ih]

theorem shellWords_shellQuote (value : String) (rest : List Char) :
    shellWords none .plain ((shellQuote value).toList ++ rest)
      = shellWords (some value.toList) .plain rest := by
  have h := shellWords_quoted [] value.toList rest
  simpa [shellQuote, shellWords] using h

/-- The words of the flags. -/
def flagWords (options : SshOptions) : List String :=
  (if options.verbose then ["--verbose"] else []) ++ if options.forceRelay then ["--relay"] else []

theorem shellWords_proxyCommand (mediumExePath : String) (options : SshOptions) :
    shellWords none .plain (proxyCommand mediumExePath options).toList
      = some ([mediumExePath, "proxy", "ssh", "--device", options.deviceName]
        ++ flagWords options) := by
  have hflags : ∀ word, shellWords (some word) .plain
      ((if options.verbose then " --verbose" else "").toList
        ++ (if options.forceRelay then " --relay" else "").toList)
      = some (.ofList word :: flagWords options) := by
    intro word
    cases hverbose : options.verbose <;> cases hrelay : options.forceRelay <;>
      simp [flagWords, shellWords, hverbose, hrelay]
  have hmiddle : ∀ word rest, shellWords (some word) .plain (" proxy ssh --device ".toList ++ rest)
      = (shellWords none .plain rest).map ([.ofList word, "proxy", "ssh", "--device"] ++ ·) := by
    intro word rest
    simp [shellWords, Function.comp_def]
  rw [proxyCommand]
  simp only [String.toList_append, List.append_assoc]
  rw [shellWords_shellQuote, hmiddle, shellWords_shellQuote, hflags]
  simp

theorem parseProxySshOptions_words (options : SshOptions) (deviceName : String) :
    parseProxySshOptions ("--device" :: deviceName :: flagWords options)
      = .ok { options with deviceName := deviceName } := by
  obtain ⟨_, verbose, forceRelay⟩ := options
  cases verbose <;> cases forceRelay <;> simp [parseProxySshOptions, parseProxySshArgs, flagWords]

/-- The second process gets the name and the flags of the first.  A `%` in the name
would be expanded by `ssh`. -/
theorem proxyCommand_options (token : Char → Option (List Char)) {mediumExePath : String}
    {options : SshOptions} (hexe : '%' ∉ mediumExePath.toList)
    (hname : '%' ∉ options.deviceName.toList) :
    ∃ args, subprocessArgs token (proxyCommand mediumExePath options)
        = some (mediumExePath :: "proxy" :: "ssh" :: args)
      ∧ parseProxySshOptions args = .ok options := by
  have hquote : ∀ value : String, '%' ∉ value.toList → '%' ∉ (shellQuote value).toList := by
    intro value h
    simp only [shellQuote, String.toList_append, String.toList_ofList, List.mem_append,
      List.mem_flatMap, not_or, not_exists, not_and]
    refine ⟨⟨by decide, fun c hc => ?_⟩, by decide⟩
    split
    · decide
    · rw [List.mem_singleton]
      rintro rfl
      exact h hc
  have hcommand : '%' ∉ (proxyCommand mediumExePath options).toList := by
    simp only [proxyCommand, String.toList_append, List.mem_append, not_or]
    refine ⟨⟨⟨⟨hquote _ hexe, by decide⟩, hquote _ hname⟩, ?_⟩, ?_⟩ <;> split <;> decide
  refine ⟨"--device" :: options.deviceName :: flagWords options, ?_, ?_⟩
  · rw [subprocessArgs, percentExpand_of_notMem token hcommand, Option.bind_eq_bind,
      Option.bind_some, shellWords_proxyCommand]
    simp
  · exact parseProxySshOptions_words options options.deviceName

/-! ## Two lookups -/

/-- The device that the second lookup finds before the first device with the name. -/
def idDevice (devices : List DeviceRecord) (deviceName : String) : Option DeviceRecord :=
  (devices.takeWhile fun device => device.name ≠ deviceName).find? fun device =>
    device.id = deviceName

variable {devices : List DeviceRecord} {deviceName : String} {device : DeviceRecord}

theorem sshDevice_eq_ok_iff {ssh : SshEndpoint} :
    sshDevice devices deviceName = .ok (device, ssh)
      ↔ devices.find? (fun device => device.name = deviceName) = some device
        ∧ device.ssh = some ssh := by
  unfold sshDevice
  cases devices.find? fun device => device.name = deviceName with
  | none => simp
  | some found =>
    cases hssh : found.ssh with
    | none =>
      simp only [hssh, reduceCtorEq, Option.some.injEq, false_iff, not_and]
      rintro rfl
      simp [hssh]
    | some endpoint =>
      simp only [hssh, Except.ok.injEq, Prod.mk.injEq, Option.some.injEq]
      constructor
      · rintro ⟨rfl, rfl⟩
        exact ⟨rfl, hssh⟩
      · rintro ⟨rfl, h⟩
        exact ⟨rfl, Option.some.inj (hssh.symm.trans h)⟩

/-- The second lookup finds the device of the first, or one before it by its id. -/
theorem findDevice_eq (h : devices.find? (fun device => device.name = deviceName) = some device) :
    findDevice devices deviceName = .ok ((idDevice devices deviceName).getD device) := by
  have hfind : devices.find? (fun device => device.name = deviceName ∨ device.id = deviceName)
      = some ((idDevice devices deviceName).getD device) := by
    induction devices with
    | nil => cases h
    | cons first devices ih =>
      by_cases hname : first.name = deviceName
      · rw [List.find?_cons_of_pos (by simpa using hname)] at h
        obtain rfl := Option.some.inj h
        simp [idDevice, hname]
      · rw [List.find?_cons_of_neg (by simpa using hname)] at h
        by_cases hid : first.id = deviceName
        · simp [idDevice, hname, hid]
        · rw [List.find?_cons_of_neg (by simp [hname, hid]), ih h]
          simp [idDevice, hname, hid]
  rw [findDevice, hfind]

theorem runSshCommand_eq_ok {state : AppState} {publicKey : String}
    {certificate : SshCertificateRequest}
    (h : runSshCommand state devices deviceName publicKey = .ok certificate) :
    ∃ device ssh, devices.find? (fun device => device.name = deviceName) = some device
      ∧ device.ssh = some ssh
      ∧ certificate.nodeId = some device.id ∧ certificate.serviceId = ssh.serviceId := by
  unfold runSshCommand at h
  split at h
  · cases h
  next device ssh hdevice =>
    unfold issueSshCertificate at h
    split at h
    · cases h
    · cases h
      exact ⟨device, ssh, (sshDevice_eq_ok_iff.mp hdevice).1, (sshDevice_eq_ok_iff.mp hdevice).2,
        rfl, rfl⟩

theorem runProxySsh_eq_ok_iff {state : AppState} {session : SessionOpenRequest}
    (h : findDevice devices deviceName = .ok device) :
    runProxySsh state devices deviceName = .ok session
      ↔ ∃ ssh, device.ssh = some ssh ∧ (∃ service ∈ device.services, service.id = ssh.serviceId)
        ∧ session = ⟨ssh.serviceId, state.deviceName, some device.id⟩ := by
  unfold runProxySsh
  rw [h]
  cases hssh : device.ssh with
  | none => simp [hssh]
  | some ssh =>
    simp only [hssh, runProxyDeviceService, Option.some.injEq, exists_eq_left']
    cases hservice : device.services.find? fun service => service.id = ssh.serviceId with
    | none =>
      simp only [reduceCtorEq, false_iff, not_and]
      rintro ⟨service, hmem, hid⟩
      exact absurd hid (by simpa using List.find?_eq_none.mp hservice service hmem)
    | some service =>
      have hfound := List.find?_some hservice
      simp only [decide_eq_true_eq] at hfound
      simp only [openSessionForNode, Except.ok.injEq]
      constructor
      · rintro rfl
        exact ⟨⟨service, List.mem_of_find?_eq_some hservice, hfound⟩, rfl⟩
      · rintro ⟨-, rfl⟩
        rfl

/-- The certificate of `medium ssh` is for the node and the service of the session
exactly if a device before the named one that has the name for its id, with a published SSH
service, has the id and the service of the named one. -/
theorem ssh_target_iff {state : AppState} {devices : List DeviceRecord}
    {deviceName publicKey : String} {certificate : SshCertificateRequest}
    (requested : runSshCommand state devices deviceName publicKey = .ok certificate) :
    (∀ session, runProxySsh state devices deviceName = .ok session →
        session.nodeId = certificate.nodeId ∧ session.serviceId = certificate.serviceId)
      ↔ ∀ device, devices.find? (fun device => device.name = deviceName) = some device →
        ∀ ssh, device.ssh = some ssh → ∀ other otherSsh, idDevice devices deviceName = some other →
          other.ssh = some otherSsh →
          (∃ service ∈ other.services, service.id = otherSsh.serviceId) →
            other.id = device.id ∧ otherSsh.serviceId = ssh.serviceId := by
  obtain ⟨device, ssh, hdevice, hssh, hnode, hservice⟩ := runSshCommand_eq_ok requested
  have hfind := findDevice_eq hdevice
  simp only [hdevice, hssh, Option.some.injEq, forall_eq']
  cases hother : idDevice devices deviceName with
  | none =>
    rw [hother, Option.getD_none] at hfind
    refine iff_of_true ?_ (by simp)
    intro session hsession
    obtain ⟨ssh', hssh', -, rfl⟩ := (runProxySsh_eq_ok_iff hfind).mp hsession
    cases hssh.symm.trans hssh'
    exact ⟨hnode.symm, hservice.symm⟩
  | some other =>
    rw [hother, Option.getD_some] at hfind
    simp only [runProxySsh_eq_ok_iff hfind, Option.some.injEq]
    constructor
    · rintro h _ ssh' rfl hssh' hservice'
      obtain ⟨hsame, hserved⟩ := h _ ⟨ssh', hssh', hservice', rfl⟩
      exact ⟨Option.some.inj (hsame.trans hnode), hserved.trans hservice⟩
    · rintro h _ ⟨ssh', hssh', hservice', rfl⟩
      obtain ⟨hsame, hserved⟩ := h other ssh' rfl hssh' hservice'
      exact ⟨(congrArg some hsame).trans hnode.symm, hserved.trans hservice.symm⟩

/-- A device with an SSH service. -/
def sampleDevice (id name : String) : DeviceRecord where
  id := id
  name := name
  ssh := some ⟨"svc_ssh", "192.0.2.1", 17001, "overlay"⟩
  services := [⟨"svc_ssh", .ssh, 1, none, "127.0.0.1:22", some "overlay"⟩]

def sampleAppState : AppState := ⟨"laptop", "secret"⟩

theorem ssh_target_iff_alone :
    ∃ certificate session,
      runSshCommand sampleAppState [sampleDevice "node-1" "studio"] "studio" "ssh-ed25519 AAAA"
        = .ok certificate
      ∧ runProxySsh sampleAppState [sampleDevice "node-1" "studio"] "studio" = .ok session
      ∧ session.nodeId = certificate.nodeId ∧ session.serviceId = certificate.serviceId := by
  have hrequested : runSshCommand sampleAppState [sampleDevice "node-1" "studio"] "studio"
      "ssh-ed25519 AAAA"
      = .ok ⟨"svc_ssh", some "node-1", "laptop", "ssh-ed25519 AAAA", "secret"⟩ := by
    decide
  have hopened : runProxySsh sampleAppState [sampleDevice "node-1" "studio"] "studio"
      = .ok ⟨"svc_ssh", "laptop", some "node-1"⟩ := by
    decide
  refine ⟨_, _, hrequested, hopened, (ssh_target_iff hrequested).mpr ?_ _ hopened⟩
  intro device _ ssh _ other otherSsh hother
  cases hother

/-- The node `alpha` stands before a node with the name `alpha`.  The certificate is
for the second and the session goes to the first. -/
theorem ssh_target_differs :
    runSshCommand sampleAppState [sampleDevice "alpha" "gateway", sampleDevice "beta" "alpha"]
        "alpha" "ssh-ed25519 AAAA"
      = .ok ⟨"svc_ssh", some "beta", "laptop", "ssh-ed25519 AAAA", "secret"⟩
    ∧ runProxySsh sampleAppState [sampleDevice "alpha" "gateway", sampleDevice "beta" "alpha"]
        "alpha"
      = .ok ⟨"svc_ssh", "laptop", some "alpha"⟩ := by
  decide

end MediumOverlay
