import EvmInspect.Node.Client
import EvmInspect.Settings.AbiEntry
import EvmInspect.Toml.Parser
import EvmInspect.Trace.Preview
import EvmInspect.Url.Scheme

/-!
# Settings

The settings say which node to ask, how to shorten values in reports, and where the ABIs
of contracts are. Every section of a settings file and every value in it has a default;
settings are checked once they are all known.
-/

namespace EvmInspect

namespace Settings

/-- Which node to ask and how. Times are in seconds. -/
structure NodeSettings where
  url : Option String := none
  /-- The block that every question is about. -/
  block : Option UInt64 := none
  timeout : Nat := 30
  connectTimeout : Nat := 10
  maxRetries : Nat := 3
  baseBackoff : Nat := 1
deriving DecidableEq

namespace NodeSettings

open Json in
def read : Reader NodeSettings := fun document => do
  let standard : NodeSettings := {}
  let seconds := readBelow UInt64.size
  let names := ["url", "block", "timeout", "connect_timeout", "max_retries", "base_backoff"]
  match ← objectFields names document with
  | [url, block, timeout, connectTimeout, maxRetries, baseBackoff] =>
    some {
      url := ← optional readString url
      block := ← optional readUInt64 block
      timeout := ← withDefault standard.timeout seconds timeout
      connectTimeout := ← withDefault standard.connectTimeout seconds connectTimeout
      maxRetries := ← withDefault standard.maxRetries (readBelow UInt32.size) maxRetries
      baseBackoff := ← withDefault standard.baseBackoff seconds baseBackoff }
  | _ => none

/-- The same times and tries for a client. -/
def clientConfig (node : NodeSettings) : Node.ClientConfig where
  timeoutMs := node.timeout * 1000
  connectTimeoutMs := node.connectTimeout * 1000
  maxRetries := node.maxRetries
  baseBackoffMs := node.baseBackoff * 1000

end NodeSettings

end Settings

structure Settings where
  node : Settings.NodeSettings := {}
  preview : Trace.PreviewConfig := {}
  abi : List Settings.AbiEntry := []
deriving DecidableEq

/-- Why settings do not hold together. -/
inductive SettingsError where
  | badUrl (url : String) (cause : Url.UrlError)
  | badScheme (scheme : String)
  | noTime
  /-- A shortened text would be longer than one that is not shortened. -/
  | longPreview (preview limit : Nat)
  | badAddress (address : String) (cause : AddressError)
  | noPath (address : String)
deriving DecidableEq

/-- The wording of the error. -/
def SettingsError.message : SettingsError → String
  | badUrl url cause => s!"rpc.url {Text.quoted url}: {cause.message}"
  | badScheme scheme => s!"rpc.url must use http or https, got {scheme}"
  | noTime => "rpc.timeout must be greater than zero"
  | longPreview preview limit =>
    s!"decoder.string_preview_chars ({preview}) must not exceed decoder.max_string_chars ({limit})"
  | badAddress address cause => s!"abi entry {address}: {cause.message}"
  | noPath address => s!"abi entry {address} has an empty path"

namespace Settings

/-- The address that an entry is for. -/
def AbiEntry.parsedAddress (entry : AbiEntry) : Except SettingsError Address :=
  (Address.parse entry.address).mapError (.badAddress entry.address)

/-- An entry needs an address and a path. -/
def AbiEntry.check (entry : AbiEntry) : Except SettingsError Unit :=
  match entry.parsedAddress with
  | .error e => .error e
  | .ok _ => if entry.path.isEmpty then .error (.noPath entry.address) else .ok ()

theorem AbiEntry.check_eq_ok_iff {entry : AbiEntry} :
    entry.check = .ok () ↔ (∃ a, entry.parsedAddress = .ok a) ∧ entry.path ≠ "" := by
  rw [AbiEntry.check]
  cases entry.parsedAddress with
  | error e => simp
  | ok a => by_cases missing : entry.path = "" <;> simp [missing]

/-- The URL of the node, if there is one, has to be a URL of the web. -/
def checkUrl : Option String → Except SettingsError Unit
  | none => .ok ()
  | some url =>
    match Url.scheme url with
    | .error cause => .error (.badUrl url cause)
    | .ok scheme =>
      if scheme = "http" || scheme = "https" then .ok () else .error (.badScheme scheme)

/-- Checks entries in their order. -/
def checkEntries : List AbiEntry → Except SettingsError Unit
  | [] => .ok ()
  | entry :: rest =>
    match entry.check with
    | .ok () => checkEntries rest
    | .error e => .error e

theorem checkEntries_eq_ok_iff {entries : List AbiEntry} :
    checkEntries entries = .ok () ↔ ∀ entry ∈ entries, entry.check = .ok () := by
  induction entries with
  | nil => simp [checkEntries]
  | cons entry rest ih =>
    rw [checkEntries, List.forall_mem_cons]
    cases h : entry.check with
    | ok _ => simp [ih]
    | error e => simp

/-- Checks the settings; of several faults the first is given. -/
def check (settings : Settings) : Except SettingsError Unit :=
  match checkUrl settings.node.url with
  | .error e => .error e
  | .ok () =>
    if settings.node.timeout = 0 then .error .noTime
    else if settings.preview.maxStringChars < settings.preview.stringPreviewChars then
      .error (.longPreview settings.preview.stringPreviewChars settings.preview.maxStringChars)
    else checkEntries settings.abi

/-- What settings have to meet. -/
structure Sound (settings : Settings) : Prop where
  url : checkUrl settings.node.url = .ok ()
  timeout : settings.node.timeout ≠ 0
  preview : settings.preview.stringPreviewChars ≤ settings.preview.maxStringChars
  entries : ∀ entry ∈ settings.abi, entry.check = .ok ()

theorem check_eq_ok_iff {settings : Settings} : settings.check = .ok () ↔ settings.Sound := by
  constructor
  · intro passes
    unfold check at passes
    split at passes
    · cases passes
    next url =>
      split at passes
      · cases passes
      next timeout =>
        split at passes
        · cases passes
        next preview =>
          exact ⟨url, timeout, Nat.le_of_not_lt preview, checkEntries_eq_ok_iff.mp passes⟩
  · rintro ⟨url, timeout, preview, entries⟩
    simp only [check, url, if_neg timeout, if_neg (Nat.not_lt.mpr preview)]
    exact checkEntries_eq_ok_iff.mpr entries

open Json in
def read : Reader Settings := fun document => do
  let standard : Settings := {}
  match ← objectFields ["rpc", "decoder", "abi"] document with
  | [node, preview, abi] =>
    some {
      node := ← withDefault standard.node NodeSettings.read node
      preview := ← withDefault standard.preview
        (fun document => Trace.PreviewConfig.read (document.leading 4)) preview
      abi := ← withDefault standard.abi (readList AbiEntry.read) abi }
  | _ => none

/-- Reads the settings in a TOML text, without checking them. -/
def ofToml? (text : String) : Option Settings := (Toml.parse? text).bind read

end Settings

end EvmInspect
