import MediumOverlay.Cli.Ssh

/-!
# The `ProxyCommand` of `medium ssh`

`medium ssh` hands `ssh` the command of the second process as one text, and two programs read
it.  `ssh` replaces its tokens, which start with a percent sign, and a shell splits what comes
out of that into words.  `shell_quote` quotes the name of the device for the shell.  Nothing
quotes it for `ssh`.

A quoted text is expanded as the text itself would be (`percentExpand_shellQuote`), so the
second process gets the name that comes out of the expansion, if anything does.  That is the
name itself, whatever the tokens stand for, exactly if it has no percent sign.
-/

namespace MediumOverlay

/-! ## Options -/

/-- The loop of `parse_ssh_options`. -/
def parseSshArgs (deviceName : Option String) (verbose forceRelay : Bool) :
    List String → Except String SshOptions
  | [] =>
    match deviceName with
    | none => .error "medium ssh requires a device"
    | some deviceName => .ok ⟨deviceName, verbose, forceRelay⟩
  | arg :: args =>
    if arg = "-v" ∨ arg = "--verbose" then parseSshArgs deviceName true forceRelay args
    else if arg = "--relay" then parseSshArgs deviceName verbose true args
    else if arg = "sync" ∧ deviceName.isNone then
      .error "medium ssh sync was removed; use `medium ssh <device>`"
    else if arg.toList.head? = some '-' then .error ("unknown medium ssh option: " ++ arg)
    else if deviceName.isSome then .error "medium ssh accepts exactly one device"
    else parseSshArgs (some arg) verbose forceRelay args

/-- `parse_ssh_options`. -/
def parseSshOptions (args : List String) : Except String SshOptions :=
  parseSshArgs none false false args

/-- `ssh_command_args`. -/
def sshCommandArgs (userName privateKeyPath certificatePath mediumExePath : String)
    (options : SshOptions) : List String :=
  ["-l", userName, "-i", privateKeyPath, "-o", "IdentitiesOnly=yes",
    "-o", "CertificateFile=" ++ certificatePath, "-o", "BatchMode=yes",
    "-o", "NumberOfPasswordPrompts=0", "-o", "PreferredAuthentications=publickey",
    "-o", "StrictHostKeyChecking=no", "-o", "UserKnownHostsFile=/dev/null",
    "-o", "GlobalKnownHostsFile=/dev/null", "-o", "ConnectTimeout=45",
    "-o", "ConnectionAttempts=1", "-o", "ProxyCommand=" ++ proxyCommand mediumExePath options,
    options.deviceName]

/-! ## `ssh` -/

/-- What `ssh` takes for its settings.  The host ends them. -/
def sshSettings : List String → List String
  | flag :: value :: args =>
    if flag = "-o" then value :: sshSettings args
    else if flag = "-l" ∨ flag = "-i" then sshSettings args
    else []
  | _ => []

/-- The first `ProxyCommand` is the one that counts. -/
def proxyCommandOf (args : List String) : Option String :=
  (sshSettings args).findSome? (Str.stripPrefix "ProxyCommand=")

/-- What the tokens stand for. -/
structure SshTokens where
  host : String
  originalHost : String
  port : String
  user : String
deriving DecidableEq, Repr

/-- The tokens of a `ProxyCommand`. -/
def SshTokens.token (tokens : SshTokens) (c : Char) : Option (List Char) :=
  if c = '%' then some ['%']
  else if c = 'h' then some tokens.host.toList
  else if c = 'n' then some tokens.originalHost.toList
  else if c = 'p' then some tokens.port.toList
  else if c = 'r' then some tokens.user.toList
  else none

/-- The words of the command that `ssh` runs. -/
def proxyWords (tokens : SshTokens) (args : List String) : Option (List String) :=
  (proxyCommandOf args).bind (subprocessArgs tokens.token)

section Settings

variable (userName privateKeyPath certificatePath mediumExePath : String) (options : SshOptions)

/-- The settings of `ssh_command_args` without the `ProxyCommand`. -/
def otherSettings : List String :=
  ["IdentitiesOnly=yes", "CertificateFile=" ++ certificatePath, "BatchMode=yes",
    "NumberOfPasswordPrompts=0", "PreferredAuthentications=publickey", "StrictHostKeyChecking=no",
    "UserKnownHostsFile=/dev/null", "GlobalKnownHostsFile=/dev/null", "ConnectTimeout=45",
    "ConnectionAttempts=1"]

theorem sshSettings_sshCommandArgs :
    sshSettings (sshCommandArgs userName privateKeyPath certificatePath mediumExePath options)
      = otherSettings certificatePath
        ++ ["ProxyCommand=" ++ proxyCommand mediumExePath options] := by
  simp [sshCommandArgs, sshSettings, otherSettings]

theorem stripPrefix_otherSettings :
    ∀ setting ∈ otherSettings certificatePath, Str.stripPrefix "ProxyCommand=" setting = none := by
  have hstart : ∀ setting ∈ otherSettings certificatePath,
      setting.toList.take 3 ≠ ['P', 'r', 'o'] := by
    simp [otherSettings]
  intro setting hmem
  cases hstrip : Str.stripPrefix "ProxyCommand=" setting with
  | none => rfl
  | some rest =>
    refine absurd ?_ (hstart setting hmem)
    rw [Str.stripPrefix_eq_some_iff.mp hstrip]
    simp

theorem proxyCommandOf_sshCommandArgs :
    proxyCommandOf (sshCommandArgs userName privateKeyPath certificatePath mediumExePath options)
      = some (proxyCommand mediumExePath options) := by
  have hnone : (otherSettings certificatePath).findSome? (Str.stripPrefix "ProxyCommand=")
      = none := List.findSome?_eq_none_iff.mpr (stripPrefix_otherSettings certificatePath)
  have hcommand : Str.stripPrefix "ProxyCommand="
      ("ProxyCommand=" ++ proxyCommand mediumExePath options)
      = some (proxyCommand mediumExePath options) := Str.stripPrefix_eq_some_iff.mpr rfl
  rw [proxyCommandOf, sshSettings_sshCommandArgs, List.findSome?_append, hnone, Option.none_or,
    List.findSome?_singleton, hcommand]

end Settings

/-! ## Expansion of a quoted text -/

/-- What a token stands for cannot end a quotation, and a quote is no token. -/
structure Unquoted (token : Char → Option (List Char)) : Prop where
  value : ∀ c value, token c = some value → '\'' ∉ value
  quote : token '\'' = none

/-- A text between quotes. -/
def quoteChars (cs : List Char) : List Char :=
  cs.flatMap fun c => if c = '\'' then ['\'', '\\', '\'', '\''] else [c]

theorem quoteChars_eq_self {cs : List Char} (h : '\'' ∉ cs) : quoteChars cs = cs := by
  induction cs with
  | nil => rfl
  | cons c cs ih =>
    obtain ⟨hc, hcs⟩ := not_or.mp (mt List.mem_cons.mpr h)
    rw [quoteChars, List.flatMap_cons, if_neg (Ne.symm hc), ← quoteChars, ih hcs]
    rfl

theorem quoteChars_append (cs ds : List Char) :
    quoteChars (cs ++ ds) = quoteChars cs ++ quoteChars ds := List.flatMap_append

theorem toList_shellQuote (value : String) :
    (shellQuote value).toList = '\'' :: (quoteChars value.toList ++ ['\'']) := by
  simp [shellQuote, quoteChars]

section Expansion

variable {token : Char → Option (List Char)}

theorem percentExpand_cons {c : Char} (hc : c ≠ '%') (cs : List Char) :
    percentExpand token (c :: cs) = (percentExpand token cs).map (c :: ·) := by
  rw [percentExpand]
  · cases percentExpand token cs <;> rfl
  · exact fun h => absurd h hc
  · exact fun _ _ h => absurd h hc

theorem percentExpand_token (c : Char) (cs : List Char) :
    percentExpand token ('%' :: c :: cs)
      = (token c).bind fun value => (percentExpand token cs).map (value ++ ·) := by
  rw [percentExpand]
  cases token c with
  | none => rfl
  | some value => cases percentExpand token cs <;> rfl

theorem percentExpand_append {cs : List Char} (h : '%' ∉ cs) (ds : List Char) :
    percentExpand token (cs ++ ds) = (percentExpand token ds).map (cs ++ ·) := by
  induction cs with
  | nil => simp
  | cons c cs ih =>
    obtain ⟨hc, hcs⟩ := not_or.mp (mt List.mem_cons.mpr h)
    rw [List.cons_append, percentExpand_cons (Ne.symm hc), ih hcs, Option.map_map]
    rfl

/-- Between quotes a text is expanded as it is without them. -/
theorem percentExpand_quoteChars (htoken : Unquoted token) (cs rest : List Char) :
    percentExpand token (quoteChars cs ++ '\'' :: rest)
      = (percentExpand token cs).bind fun ds =>
        (percentExpand token rest).map fun es => quoteChars ds ++ '\'' :: es := by
  induction cs using percentExpand.induct with
  | case1 =>
    rw [percentExpand, Option.bind_some]
    exact percentExpand_cons (by decide) rest
  | case2 =>
    -- the quote behind the text is taken for a token
    have hquoted : quoteChars ['%'] ++ '\'' :: rest = '%' :: '\'' :: rest := rfl
    rw [hquoted, percentExpand_token, htoken.quote, percentExpand]
    rfl
  | case3 c cs ih =>
    have hhead : quoteChars ('%' :: c :: cs)
        = '%' :: (quoteChars [c] ++ quoteChars cs) := by simp [quoteChars]
    rw [hhead, percentExpand_token]
    by_cases hc : c = '\''
    · subst hc
      rw [htoken.quote]
      exact (percentExpand_token _ _).trans (by rw [htoken.quote]; rfl)
    · have hone : quoteChars [c] = [c] := by simp [quoteChars, hc]
      rw [hone, List.cons_append, List.singleton_append, List.cons_append, percentExpand_token,
        ih]
      cases hvalue : token c with
      | none => rfl
      | some value =>
        have hsame : quoteChars value = value :=
          quoteChars_eq_self (htoken.value c value hvalue)
        cases percentExpand token cs with
        | none => rfl
        | some ds =>
          simp only [Option.bind_some, Option.map_some, Option.map_map, quoteChars_append,
            hsame, List.append_assoc]
          rfl
  | case4 c cs hpercent hother ih =>
    have hc : c ≠ '%' := by
      rintro rfl
      cases cs with
      | nil => exact hpercent rfl rfl
      | cons d cs => exact hother d cs rfl rfl
    have hhead : quoteChars (c :: cs) = quoteChars [c] ++ quoteChars cs :=
      quoteChars_append [c] cs
    have hplain : '%' ∉ quoteChars [c] := by
      by_cases hquote : c = '\''
      · subst hquote
        decide
      · simp [quoteChars, hquote, Ne.symm hc]
    rw [hhead, List.append_assoc, percentExpand_append hplain, ih, percentExpand_cons hc]
    cases percentExpand token cs with
    | none => rfl
    | some ds =>
      have hds : quoteChars (c :: ds) = quoteChars [c] ++ quoteChars ds :=
        quoteChars_append [c] ds
      simp only [Option.bind_some, Option.map_some, Option.map_map, hds, List.append_assoc]
      rfl

theorem percentExpand_shellQuote (htoken : Unquoted token) (value : String) (rest : List Char) :
    percentExpand token ((shellQuote value).toList ++ rest)
      = (percentExpand token value.toList).bind fun ds =>
        (percentExpand token rest).map fun es => (shellQuote (.ofList ds)).toList ++ es := by
  rw [toList_shellQuote, List.cons_append, percentExpand_cons (by decide), List.append_assoc,
    List.singleton_append, percentExpand_quoteChars htoken]
  simp only [toList_shellQuote, String.toList_ofList]
  cases percentExpand token value.toList with
  | none => rfl
  | some ds =>
    cases percentExpand token rest with
    | none => rfl
    | some es => simp

/-- The second process gets what the expansion makes of the path and of the name. -/
theorem subprocessArgs_proxyCommand (htoken : Unquoted token) (mediumExePath : String)
    (options : SshOptions) :
    subprocessArgs token (proxyCommand mediumExePath options)
      = (percentExpand token mediumExePath.toList).bind fun exe =>
        (percentExpand token options.deviceName.toList).map fun name =>
          .ofList exe :: "proxy" :: "ssh" :: "--device" :: .ofList name :: flagWords options := by
  have hflags : '%' ∉ (if options.verbose then " --verbose" else "").toList
      ++ (if options.forceRelay then " --relay" else "").toList := by
    cases options.verbose <;> cases options.forceRelay <;> decide
  have hrest := percentExpand_of_notMem token hflags
  rw [subprocessArgs, proxyCommand]
  simp only [String.toList_append, List.append_assoc]
  rw [percentExpand_shellQuote htoken, percentExpand_append (by decide),
    percentExpand_shellQuote htoken, hrest]
  cases percentExpand token mediumExePath.toList with
  | none => rfl
  | some exe =>
    cases percentExpand token options.deviceName.toList with
    | none => rfl
    | some name =>
      have hwords :=
        shellWords_proxyCommand (.ofList exe) { options with deviceName := .ofList name }
      simpa [proxyCommand, flagWords] using hwords

/-- An expansion to single characters at most makes a text with tokens shorter. -/
theorem length_percentExpand (hshort : ∀ c value, token c = some value → value.length ≤ 1)
    {cs ds : List Char} (h : percentExpand token cs = some ds) :
    ds.length ≤ cs.length ∧ ('%' ∈ cs → ds.length < cs.length) := by
  induction cs using percentExpand.induct generalizing ds with
  | case1 =>
    cases h
    simp
  | case2 => cases h
  | case3 c cs ih =>
    rw [percentExpand_token] at h
    obtain ⟨value, hvalue, h⟩ := Option.bind_eq_some_iff.mp h
    obtain ⟨es, hes, rfl⟩ := Option.map_eq_some_iff.mp h
    have hone := hshort c value hvalue
    have hle := (ih hes).1
    simp only [List.length_append, List.length_cons]
    omega
  | case4 c cs hpercent hother ih =>
    have hc : c ≠ '%' := by
      rintro rfl
      cases cs with
      | nil => exact hpercent rfl rfl
      | cons d cs => exact hother d cs rfl rfl
    rw [percentExpand_cons hc] at h
    obtain ⟨es, hes, rfl⟩ := Option.map_eq_some_iff.mp h
    obtain ⟨hle, hlt⟩ := ih hes
    simp only [List.length_cons, List.mem_cons]
    refine ⟨by omega, fun hmem => ?_⟩
    have hrest := hlt (hmem.resolve_left (Ne.symm hc))
    omega

end Expansion

/-! ## The words of the second process -/

/-- Tokens that stand for nothing. -/
def SshTokens.none : SshTokens := ⟨"", "", "", ""⟩

theorem SshTokens.token_none {c : Char} {value : List Char}
    (h : SshTokens.none.token c = some value) : value = [] ∨ value = ['%'] := by
  unfold SshTokens.token SshTokens.none at h
  split at h
  · cases h
    exact .inr rfl
  · left
    split_ifs at h <;> cases h <;> rfl

theorem SshTokens.unquoted_none : Unquoted SshTokens.none.token where
  value c value h := by
    obtain rfl | rfl := token_none h
    · simp
    · decide
  quote := rfl

/-- If nothing is left out of a text, it has no tokens. -/
theorem notMem_of_percentExpand {cs : List Char}
    (h : percentExpand SshTokens.none.token cs = some cs) : '%' ∉ cs := by
  intro hmem
  have hshort : ∀ c value, SshTokens.none.token c = some value → value.length ≤ 1 := by
    intro c value hvalue
    obtain rfl | rfl := SshTokens.token_none hvalue
    · simp
    · simp
  exact Nat.lt_irrefl _ ((length_percentExpand hshort h).2 hmem)

section Delivery

variable (userName privateKeyPath certificatePath mediumExePath : String) (options : SshOptions)

/-- `ssh` and the shell give the second process its path, the name of the device and the
flags. -/
def Delivers (tokens : SshTokens) : Prop :=
  ∃ args,
    proxyWords tokens
        (sshCommandArgs userName privateKeyPath certificatePath mediumExePath options)
      = some (mediumExePath :: "proxy" :: "ssh" :: args)
    ∧ parseProxySshOptions args = .ok options

/-- The path and the name have to be what the expansion makes of them. -/
theorem delivers_iff {tokens : SshTokens} (htoken : Unquoted tokens.token) :
    Delivers userName privateKeyPath certificatePath mediumExePath options tokens
      ↔ percentExpand tokens.token mediumExePath.toList = some mediumExePath.toList
        ∧ percentExpand tokens.token options.deviceName.toList
          = some options.deviceName.toList := by
  simp only [Delivers, proxyWords, proxyCommandOf_sshCommandArgs, Option.bind_some,
    subprocessArgs_proxyCommand htoken]
  constructor
  · rintro ⟨args, hwords, hargs⟩
    obtain ⟨exe, hexe, hwords⟩ := Option.bind_eq_some_iff.mp hwords
    obtain ⟨name, hname, hwords⟩ := Option.map_eq_some_iff.mp hwords
    simp only [List.cons.injEq, true_and] at hwords
    obtain ⟨rfl, rfl⟩ := hwords
    rw [parseProxySshOptions_words] at hargs
    have hsame : String.ofList name = options.deviceName :=
      congrArg SshOptions.deviceName (Except.ok.inj hargs)
    rw [hexe, hname, String.toList_ofList, ← hsame, String.toList_ofList]
    exact ⟨rfl, rfl⟩
  · rintro ⟨hexe, hname⟩
    refine ⟨"--device" :: options.deviceName :: flagWords options, ?_, ?_⟩
    · rw [hexe, hname]
      simp
    · exact parseProxySshOptions_words options options.deviceName

/-- The second process gets the path, the name and the flags if the tokens leave the path and
the name as they are.  They do, whatever they stand for, exactly if there is no percent sign
in the path or in the name. -/
theorem proxy_command_iff :
    (∀ tokens : SshTokens, Unquoted tokens.token →
      (Delivers userName privateKeyPath certificatePath mediumExePath options tokens
        ↔ percentExpand tokens.token mediumExePath.toList = some mediumExePath.toList
          ∧ percentExpand tokens.token options.deviceName.toList
            = some options.deviceName.toList))
    ∧ ((∀ tokens, Delivers userName privateKeyPath certificatePath mediumExePath options tokens)
        ↔ '%' ∉ mediumExePath.toList ∧ '%' ∉ options.deviceName.toList) := by
  refine ⟨fun tokens htoken => delivers_iff _ _ _ _ _ htoken, fun h => ?_, ?_⟩
  · obtain ⟨hexe, hname⟩ := (delivers_iff _ _ _ _ _ SshTokens.unquoted_none).mp (h .none)
    exact ⟨notMem_of_percentExpand hexe, notMem_of_percentExpand hname⟩
  · rintro ⟨hexe, hname⟩ tokens
    rw [Delivers, proxyWords, proxyCommandOf_sshCommandArgs, Option.bind_some]
    exact proxyCommand_options tokens.token hexe hname

end Delivery

/-- The one token that can stand for itself. -/
theorem proxy_command_iff_itself :
    Delivers "overlay" "/tmp/id" "/tmp/id-cert.pub" "/usr/bin/medium" ⟨"%n", true, false⟩
      ⟨"node.lan", "%n", "22", "overlay"⟩ := by
  have htoken : Unquoted (SshTokens.token ⟨"node.lan", "%n", "22", "overlay"⟩) := by
    refine ⟨fun c value h => ?_, rfl⟩
    unfold SshTokens.token at h
    split_ifs at h <;> cases h <;> decide
  refine ((proxy_command_iff "overlay" "/tmp/id" "/tmp/id-cert.pub" "/usr/bin/medium"
    ⟨"%n", true, false⟩).1 _ htoken).mpr ?_
  decide +kernel

/-- A name that `medium ssh` takes, and a token that `ssh` does not know. -/
theorem no_command_for_percent :
    parseSshOptions ["50%off"] = .ok ⟨"50%off", false, false⟩
      ∧ proxyWords ⟨"50%off", "50%off", "22", "overlay"⟩
          (sshCommandArgs "overlay" "/tmp/id" "/tmp/id-cert.pub" "/usr/bin/medium"
            ⟨"50%off", false, false⟩) = none := by
  decide +kernel

end MediumOverlay
