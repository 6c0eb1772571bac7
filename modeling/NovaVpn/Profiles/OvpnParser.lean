import NovaVpn.Core.Text
import NovaVpn.Profiles.Profile

/-!
# The parser for `.ovpn` files

`Profiles/OvpnParser.cpp`. A configuration is read line by line: a line that
opens an inline block takes the lines up to the closing tag with it, any other
is tokenised into a keyword and its arguments and applied to the state. What a
directive refers to on disk is read through `SideFiles`.
-/

namespace NovaVpn.Profiles

/-! ## Tokens -/

/-- `OvpnDirective`. -/
structure OvpnDirective where
  keyword : String
  args : List String
  lineNumber : Nat := 0
  deriving DecidableEq, Repr

/-- Where `tokenizeOvpnLine` stands. -/
structure TokenState where
  tokens : List (List Char) := []
  current : List Char := []
  inToken : Bool := false
  inDouble : Bool := false
  inSingle : Bool := false
  deriving DecidableEq, Repr

namespace TokenState

def push (s : TokenState) (c : Char) : TokenState := { s with current := s.current ++ [c] }

/-- The token being read ends. -/
def close (s : TokenState) : TokenState :=
  if s.inToken then { s with tokens := s.tokens ++ [s.current], current := [], inToken := false }
  else s

/-- The loop of `tokenizeOvpnLine`. -/
def scan : TokenState → List Char → TokenState
  | s, [] => s
  | s, c :: rest =>
    if !s.inDouble && !s.inSingle && (c = '#' || c = ';') then s
    else if s.inDouble then
      if c = '\\' then
        match rest with
        | d :: rest => scan (s.push d) rest
        | [] => s.push c
      else if c = '"' then scan { s with inDouble := false } rest
      else scan (s.push c) rest
    else if s.inSingle then
      if c = '\'' then scan { s with inSingle := false } rest else scan (s.push c) rest
    else if c = '"' then scan { s with inDouble := true, inToken := true } rest
    else if c = '\'' then scan { s with inSingle := true, inToken := true } rest
    else if c = ' ' || c = '\t' || c = '\r' || c = '\n' then scan s.close rest
    else scan { s.push c with inToken := true } rest

end TokenState

/-- `tokenizeOvpnLine`: none for a line without tokens. -/
def tokenizeOvpnLine (line : List Char) (lineNumber : Nat) : Option OvpnDirective :=
  match (TokenState.scan {} line).close.tokens with
  | [] => none
  | keyword :: args =>
    some { keyword := String.ofList (Str.toLower keyword), args := args.map String.ofList, lineNumber }

example : tokenizeOvpnLine "Remote \"a b\\\"\" 'c' # d".toList 3 =
    some { keyword := "remote", args := ["a b\"", "c"], lineNumber := 3 } := by
  decide +kernel

/-! ## Directives -/

/-- `dangerousDirectives`. -/
def dangerousDirectives : List String :=
  ["up", "down", "route-up", "route-pre-down", "ipchange", "tls-verify", "auth-user-pass-verify",
    "client-connect", "client-disconnect", "learn-address", "auth-pam", "up-restart",
    "script-security", "plugin", "management", "management-client", "management-external-key"]

/-- `isWeakCipher`. -/
def isWeakCipher (cipher : String) : Bool :=
  ["BF-CBC", "DES-CBC", "DES-EDE3-CBC", "RC2-CBC", "RC4", "NONE", "DES-EDE-CBC"].contains
    (String.ofList (Str.toUpper cipher.toList))

/-- `parseProto`. -/
def parseProto (proto : String) : Transport :=
  if "tcp".toList.isPrefixOf (Str.toLower proto.toList) then .tcp else .udp

/-- `OvpnParseOptions`. -/
structure OvpnParseOptions where
  baseDirectory : String := ""
  suggestedName : String := ""
  strict : Bool := false
  deriving DecidableEq, Repr

/-- The files that a configuration can refer to: whether a reference stays within
the base directory, and what reading it gives. -/
structure SideFiles where
  isContainedIn : (base reference : String) → Bool
  readText : (base reference : String) → Result String

/-- A base directory without files. -/
def noFiles : SideFiles where
  isContainedIn _ _ := false
  readText _ reference := .error (Err.notFound reference)

/-- `ImportReport`. -/
structure ImportReport where
  profile : Profile := {}
  ignoredDirectives : List String := []
  rejectedDirectives : List String := []
  warnings : List String := []
  deriving DecidableEq, Repr

/-- `ParseState`. -/
structure ParseState where
  profile : Profile
  report : ImportReport := {}
  protoDefault : String := ""
  portDefault : UInt16 := 1194
  sawRemote : Bool := false
  sawCa : Bool := false
  sawCert : Bool := false
  sawKey : Bool := false
  sawAuthUserPass : Bool := false
  redirectGateway : Bool := false
  hasTlsAuth : Bool := false
  hasTlsCrypt : Bool := false
  deriving DecidableEq, Repr

/-- `readSideFile`. -/
def readSideFile (files : SideFiles) (options : OvpnParseOptions) (reference : String) :
    Result String :=
  if options.baseDirectory.isEmpty then
    .error (Err.invalidArgument ("side-file '" ++ reference ++
      "' referenced but no base directory was given"))
  else if !files.isContainedIn options.baseDirectory reference then
    .error (Err.make .permissionDenied ("side-file '" ++ reference ++
      "' escapes the configuration directory"))
  else files.readText options.baseDirectory reference

namespace ParseState

def warn (s : ParseState) (warning : String) : ParseState :=
  { s with report := { s.report with warnings := s.report.warnings ++ [warning] } }

def ignore (s : ParseState) (key : String) : ParseState :=
  { s with report := { s.report with ignoredDirectives := s.report.ignoredDirectives ++ [key] } }

def reject (s : ParseState) (key : String) : ParseState :=
  { s with report := { s.report with rejectedDirectives := s.report.rejectedDirectives ++ [key] } }

def setOptions (s : ParseState) (f : ProfileOptions → ProfileOptions) : ParseState :=
  { s with profile := { s.profile with options := f s.profile.options } }

def setCertificates (s : ParseState) (f : CertificateSet → CertificateSet) : ParseState :=
  { s with profile := { s.profile with certificates := f s.profile.certificates } }

/-- `applyRemote`. -/
def applyRemote (s : ParseState) (args : List String) : ParseState :=
  match args with
  | [] => s
  | host :: rest =>
    let port := match rest with
      | port :: _ => (Str.strtoul port.toList).toUInt16
      | [] => s.portDefault
    let transport := match rest with
      | _ :: proto :: _ => parseProto proto
      | _ => if s.protoDefault.isEmpty then .udp else parseProto s.protoDefault
    let remote : RemoteEntry := { host, port := if port = 0 then s.portDefault else port, transport }
    { s with
      profile := { s.profile with remotes := s.profile.remotes ++ [remote] }
      sawRemote := true }

/-- `cipher` and `data-ciphers`. -/
def applyCiphers (s : ParseState) (args : List String) : ParseState :=
  match args with
  | [] => s
  | first :: _ =>
    (args.filter isWeakCipher).foldl
      (fun s cipher => s.warn ("configuration selects a weak cipher: " ++ cipher))
      (s.setOptions fun o => { o with cipherOverride := first })

/-- `ca`, `cert` and `key` with a file. -/
def applySideFile (files : SideFiles) (options : OvpnParseOptions) (s : ParseState) (key : String)
    (args : List String) : ParseState :=
  match args with
  | [] => s
  | reference :: _ =>
    if key = "key" then
      s.warn ("private key referenced a file; import the key into NovaVPN's secure " ++
        "store - it was not read from disk")
    else match readSideFile files options reference with
      | .error status =>
        s.warn ("could not read " ++ key ++ " file '" ++ reference ++ "': " ++ status.message)
      | .ok content =>
        if key = "ca" then { s.setCertificates ({ · with caPem := content }) with sawCa := true }
        else { s.setCertificates ({ · with certificatePem := content }) with sawCert := true }

/-- The directives that NovaVPN understands. One that it does not know, or that
means nothing here, is reported as ignored: the two lists of the source come to
the same. -/
def applyKnown (files : SideFiles) (options : OvpnParseOptions) (s : ParseState) (key : String)
    (args : List String) : ParseState :=
  if key = "remote" then s.applyRemote args
  else if key = "proto" then
    match args with
    | proto :: _ => { s with protoDefault := proto }
    | [] => s
  else if key = "port" || key = "rport" then
    match args with
    | port :: _ => { s with portDefault := (Str.strtoul port.toList).toUInt16 }
    | [] => s
  else if key = "remote-random" then s.setOptions ({ · with shuffleRemotes := true })
  else if key = "auth-user-pass" then
    let s := { s with sawAuthUserPass := true }
    if args.isEmpty then s
    else s.warn ("auth-user-pass referenced a credentials file; enter credentials in NovaVPN " ++
      "instead - the file was not read")
  else if key = "redirect-gateway" || key = "redirect-private" then
    { s.setOptions ({ · with redirectGateway := true }) with redirectGateway := true }
  else if key = "mssfix" || key = "tun-mtu" then
    match args with
    | mtu :: _ =>
      let mtu := Str.strtoul mtu.toList
      if mtu ≥ 576 && mtu ≤ 9000 then s.setOptions ({ · with mtu := some mtu }) else s
    | [] => s
  else if key = "keepalive" then
    match args with
    | interval :: timeout :: _ =>
      s.setOptions ({ · with
        keepaliveIntervalSeconds := some (Str.strtoul interval.toList)
        keepaliveTimeoutSeconds := some (Str.strtoul timeout.toList) })
    | _ => s
  else if key = "cipher" || key = "data-ciphers" then s.applyCiphers args
  else if key = "auth" then
    match args with
    | digest :: _ => s.setOptions ({ · with authDigestOverride := digest })
    | [] => s
  else if key = "comp-lzo" || key = "compress" || key = "comp-noadapt" then
    (s.setOptions ({ · with allowCompression := true })).warn
      ("configuration enables compression, which is a known VPN weakness (VORACLE); " ++
        "disable it unless the server requires it")
  else if key = "verify-x509-name" then
    match args with
    | name :: _ => s.setCertificates ({ · with verifyX509Name := name })
    | [] => s
  else if key = "tls-auth" then
    { s.setCertificates ({ · with tlsWrapMode := 0 }) with hasTlsAuth := true }
  else if key = "tls-crypt" then
    { s.setCertificates ({ · with tlsWrapMode := 1 }) with hasTlsCrypt := true }
  else if key = "tls-crypt-v2" then
    { s.setCertificates ({ · with tlsWrapMode := 2 }) with hasTlsCrypt := true }
  else if key = "http-proxy" then
    match args with
    | host :: port :: _ => s.setOptions ({ · with proxyUrl := "http://" ++ host ++ ":" ++ port })
    | _ => s
  else if key = "socks-proxy" then
    match args with
    | host :: port :: _ => s.setOptions ({ · with proxyUrl := "socks5://" ++ host ++ ":" ++ port })
    | _ => s
  else if key = "ca" || key = "cert" || key = "key" then s.applySideFile files options key args
  else s.ignore key

/-- `applyDirective`. -/
def applyDirective (files : SideFiles) (options : OvpnParseOptions) (s : ParseState)
    (d : OvpnDirective) : Result ParseState :=
  if dangerousDirectives.contains d.keyword then
    if options.strict then
      .error (Err.make .profileInvalid
        ("configuration contains the disallowed directive '" ++ d.keyword ++ "'"))
    else .ok (s.reject d.keyword)
  else .ok (s.applyKnown files options d.keyword d.args)

end ParseState

/-! ## Lines -/

/-- The tag of the inline block that a trimmed line opens. -/
def openingTag (raw : List Char) : Option (List Char) :=
  if raw.head? = some '<' ∧ raw.getLast? = some '>' ∧ Str.contains ['<', '/'] raw = false then
    some (Str.toLower ((raw.drop 1).take (raw.length - 2)))
  else none

/-- The line closes the inline block of the tag. -/
def closesTag (tag line : List Char) : Bool :=
  Str.equalsIgnoreCase (Str.trim line) ("</".toList ++ tag ++ ">".toList)

/-- `readInlineBlock`, of the lines after the opening tag: the body, and how many
lines it takes with the closing tag. -/
def readInlineBlock (tag : List Char) : List (List Char) → Option (List Char × Nat)
  | [] => none
  | line :: rest =>
    if closesTag tag line then some ([], 1)
    else (readInlineBlock tag rest).map fun (body, n) => (Str.trimRight line ++ '\n' :: body, n + 1)

/-- What `parseOvpn` makes of an inline block. -/
def ParseState.applyBlock (s : ParseState) (tag body : List Char) : ParseState :=
  if tag = "ca".toList then
    { s.setCertificates ({ · with caPem := String.ofList body }) with sawCa := true }
  else if tag = "cert".toList then
    { s.setCertificates ({ · with certificatePem := String.ofList body }) with sawCert := true }
  else if tag = "key".toList then
    { (s.setCertificates ({ · with privateKeyTarget := "" })).warn
        ("an inline private key was found; NovaVPN will move it into its secure " ++
          "store on import") with sawKey := true }
  else if tag = "tls-auth".toList then { s with hasTlsAuth := true }
  else if tag = "tls-crypt".toList then { s with hasTlsCrypt := true }
  else s

/-- The loop of `parseOvpn` from line `i` on; `skip` lines of an inline block are
still to be passed over. -/
def parseLines (files : SideFiles) (options : OvpnParseOptions) :
    (i skip : Nat) → ParseState → List (List Char) → Result ParseState
  | _, _, s, [] => .ok s
  | i, skip + 1, s, _ :: rest => parseLines files options (i + 1) skip s rest
  | i, 0, s, line :: rest =>
    let raw := Str.trim line
    if raw.isEmpty || raw.head? = some '#' || raw.head? = some ';' then
      parseLines files options (i + 1) 0 s rest
    else match openingTag raw with
      | some tag =>
        match readInlineBlock tag rest with
        | none =>
          .error (Err.make .parseError
            ("unterminated <" ++ String.ofList tag ++ "> block in configuration"))
        | some (body, n) => parseLines files options (i + 1) n (s.applyBlock tag body) rest
      | none =>
        match tokenizeOvpnLine raw (i + 1) with
        | none => parseLines files options (i + 1) 0 s rest
        | some d =>
          match s.applyDirective files options d with
          | .error status => .error status
          | .ok s => parseLines files options (i + 1) 0 s rest

/-- The checks and decisions after the last line. -/
def ParseState.finish (s : ParseState) : Result ImportReport :=
  if !s.sawRemote then
    .error (Err.make .profileInvalid
      "configuration has no remote server (missing 'remote' directive)")
  else
    let hasClientCert := s.sawCert || !s.profile.certificates.storeThumbprint.isEmpty
    let authMethod :=
      if hasClientCert && s.sawAuthUserPass then .certificateAndPassword
      else if s.sawAuthUserPass then .userPassword
      else if hasClientCert then .certificate
      else s.profile.authMethod
    let s := { s with profile := { s.profile with authMethod } }
    let s :=
      if !s.sawCa && s.profile.certificates.peerFingerprintSha256.isEmpty then
        s.warn ("configuration has no CA certificate; the server cannot be authenticated until one " ++
          "is provided")
      else s
    .ok { s.report with profile := s.profile }

/-- What `parseOvpn` starts from. -/
def ParseState.initial (options : OvpnParseOptions) (text : List Char) : ParseState where
  profile :=
    { name := if options.suggestedName.isEmpty then "Imported profile" else options.suggestedName
      engine := .openVpn
      sourceConfig := String.ofList text
      authMethod := .certificate }

/-- `parseOvpn`. -/
def parseOvpn (files : SideFiles) (options : OvpnParseOptions) (text : List Char) :
    Result ImportReport := do
  let s ← parseLines files options 0 0 (.initial options text) (Str.split '\n' text)
  s.finish

end NovaVpn.Profiles
