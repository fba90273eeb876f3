import EvmInspect.Proofs.Command.AccountReading
import EvmInspect.Proofs.Command.Actions
import EvmInspect.Proofs.Node.Conversations
import EvmInspect.Proofs.Node.Envelope
import EvmInspect.Proofs.Text.StorageKeys

/-!
# What is requested for an account

Loading an account takes two stages. The first settles what is meant (`Means`) and asks nobody; it
fails exactly if something is amiss (`prepare_eq_ok_iff`, `exists_means`). The second talks to a
node (`Talks`): for the balance, the number of transactions and the code, and then for each slot, at
the one block that is meant. A slot may be named several times and spelled in several ways, and is
asked for once (`account_asks_each_once`).

What is said is taken down by the way to the node itself (`Surroundings.recording`), so the law is
about any node, whatever it replies and however often it has to be asked.
-/

namespace EvmInspect.Command

open Ledger (Query Answered State)
open Node (Client Exchange Request Transport)

/-! ## What is told -/

section Told

variable {settings : Settings} {options : AccountOptions} {client : Client} {a : Address}
variable {keys : List Word}

/-- Something that is needed for an account is not right, or is not told at all. -/
inductive Amiss (settings : Settings) (options : AccountOptions) : Prop
  | address : (∀ a, Address.parse options.address ≠ .ok a) → Amiss settings options
  | slot {text} : text ∈ options.slots → Word.storageKey? text = none → Amiss settings options
  | settings : ¬ (overridden settings options).Sound → Amiss settings options
  | url : options.url = none → settings.node.url = none → Amiss settings options
  | block : options.block = none → settings.node.block = none → Amiss settings options

/-- What is told for an account means this client, this address and these slots. What the command
line tells stands in front of the settings. -/
structure Means (settings : Settings) (options : AccountOptions) (client : Client) (a : Address)
    (keys : List Word) : Prop where
  address : Address.parse options.address = .ok a
  slots : List.Forall₂ (fun text key => Word.storageKey? text = some key) options.slots keys
  sound : (overridden settings options).Sound
  url : options.url.or settings.node.url = some client.url
  block : options.block.or settings.node.block = some client.block
  config : client.config = settings.node.clientConfig

theorem target_eq_ok_iff :
    target options = .ok (a, keys) ↔ Address.parse options.address = .ok a ∧
      List.Forall₂ (fun text key => Word.storageKey? text = some key) options.slots keys := by
  constructor
  · intro aimed
    obtain ⟨b, parsed, aimed⟩ := bind_eq_ok_iff.mp aimed
    obtain ⟨ks, read, aimed⟩ := bind_eq_ok_iff.mp aimed
    cases aimed
    refine ⟨mapError_eq_ok_iff.mp parsed, (mapM_eq_ok_iff.mp read).imp fun text key got => ?_⟩
    cases found : Word.storageKey? text with
    | none =>
      rw [found] at got
      cases got
    | some k =>
      rw [found] at got
      exact congrArg some (Except.ok.inj got)
  · rintro ⟨parsed, read⟩
    refine bind_eq_ok_iff.mpr ⟨a, mapError_eq_ok_iff.mpr parsed,
      bind_eq_ok_iff.mpr ⟨keys, mapM_eq_ok_iff.mpr (read.imp fun text key got => ?_), rfl⟩⟩
    rw [got]

theorem clientOf_eq_ok_iff {node : Settings.NodeSettings} :
    clientOf node = .ok client ↔
      node.url = some client.url ∧ node.block = some client.block ∧
        client.config = node.clientConfig := by
  obtain ⟨url, block, config⟩ := client
  unfold clientOf
  cases node.url with
  | none => exact iff_of_false nofun nofun
  | some u =>
    cases node.block with
    | none => exact iff_of_false nofun nofun
    | some b =>
      constructor
      · intro made
        cases made
        exact ⟨rfl, rfl, rfl⟩
      · rintro ⟨⟨⟩, ⟨⟩, ⟨⟩⟩
        rfl

theorem prepare_eq_ok_iff :
    prepare settings options = .ok (client, a, keys) ↔ Means settings options client a keys := by
  constructor
  · intro prepared
    obtain ⟨⟨b, ks⟩, aimed, prepared⟩ := bind_eq_ok_iff.mp prepared
    obtain ⟨_, checked, prepared⟩ := bind_eq_ok_iff.mp prepared
    obtain ⟨c, connected, prepared⟩ := bind_eq_ok_iff.mp prepared
    cases prepared
    obtain ⟨address, slots⟩ := target_eq_ok_iff.mp aimed
    obtain ⟨url, block, config⟩ := clientOf_eq_ok_iff.mp connected
    have sound := Settings.check_eq_ok_iff.mp (mapError_eq_ok_iff.mp checked)
    exact ⟨address, slots, sound, url, block, config⟩
  · rintro ⟨address, slots, sound, url, block, config⟩
    have aimed := target_eq_ok_iff.mpr ⟨address, slots⟩
    have checked := Settings.check_eq_ok_iff.mpr sound
    have made : clientOf (overridden settings options).node = .ok client :=
      clientOf_eq_ok_iff.mpr ⟨url, block, config⟩
    exact bind_eq_ok_iff.mpr ⟨(a, keys), aimed, bind_eq_ok_iff.mpr
      ⟨(), mapError_eq_ok_iff.mpr checked, bind_eq_ok_iff.mpr ⟨client, made, rfl⟩⟩⟩

theorem Means.not_amiss (h : Means settings options client a keys) : ¬ Amiss settings options := by
  intro amiss
  cases amiss with
  | address none => exact none a h.address
  | @slot text mem none =>
    obtain ⟨i, within, rfl⟩ := List.getElem_of_mem mem
    have read := h.slots.get within (h.slots.length_eq ▸ within)
    cases none.symm.trans read
  | settings unsound => exact unsound h.sound
  | url none none' =>
    have url := h.url
    rw [none, none'] at url
    cases url
  | block none none' =>
    have block := h.block
    rw [none, none'] at block
    cases block

theorem exists_keys {slots : List String} (right : ∀ text ∈ slots, Word.storageKey? text ≠ none) :
    ∃ keys, List.Forall₂ (fun text key => Word.storageKey? text = some key) slots keys := by
  induction slots with
  | nil => exact ⟨[], .nil⟩
  | cons text slots ih =>
    obtain ⟨first, others⟩ := List.forall_mem_cons.mp right
    obtain ⟨key, read⟩ := Option.ne_none_iff_exists'.mp first
    obtain ⟨keys, rest⟩ := ih others
    exact ⟨key :: keys, .cons read rest⟩

/-- What is not amiss has a meaning. -/
theorem exists_means (h : ¬ Amiss settings options) :
    ∃ client a keys, Means settings options client a keys := by
  have address : ∃ a, Address.parse options.address = .ok a := by
    by_contra none
    exact h (.address fun a parsed => none ⟨a, parsed⟩)
  have slots := exists_keys fun text mem none => h (.slot mem none)
  have sound : (overridden settings options).Sound := by
    by_contra unsound
    exact h (.settings unsound)
  have url : ∃ url, options.url.or settings.node.url = some url := by
    refine Option.ne_none_iff_exists'.mp fun none => ?_
    exact h (.url (Option.or_eq_none_iff.mp none).1 (Option.or_eq_none_iff.mp none).2)
  have block : ∃ block, options.block.or settings.node.block = some block := by
    refine Option.ne_none_iff_exists'.mp fun none => ?_
    exact h (.block (Option.or_eq_none_iff.mp none).1 (Option.or_eq_none_iff.mp none).2)
  obtain ⟨a, parsed⟩ := address
  obtain ⟨keys, read⟩ := slots
  obtain ⟨url, hasUrl⟩ := url
  obtain ⟨block, hasBlock⟩ := block
  exact ⟨⟨url, block, settings.node.clientConfig⟩, a, keys, parsed, read, sound, hasUrl, hasBlock,
    rfl⟩

end Told

/-! ## What is said -/

/-- The requests for an account at a block: three for the account, and one for each slot. -/
def requests (block : UInt64) (a : Address) (keys : List Word) : List Request :=
  let tag : Json := .string (Numeral.hex block.toNat)
  [⟨"eth_getBalance", [.string a.hex, tag]⟩,
    ⟨"eth_getTransactionCount", [.string a.hex, tag]⟩,
    ⟨"eth_getCode", [.string a.hex, tag]⟩] ++
  keys.eraseDups.map fun key => ⟨"eth_getStorageAt", [.string a.hex, .string key.hex, tag]⟩

/-- A report tells what was said of an account, and of a slot always the same. -/
structure Reports (client : Client) (a : Address) (keys : List Word) (said : List Exchange)
    (view : AccountView) : Prop where
  address : view.address = a
  block : view.block = client.block
  balance : ∃ balance : Word, client.IsTold said (.balance a) balance ∧
    view.balance = balance.unsigned
  nonce : client.IsTold said (.nonce a) view.nonce
  code : client.IsTold said (.code a) view.code
  keys : view.slots.map Prod.fst = keys
  slots : ∀ entry ∈ view.slots, client.IsTold said (.slot a entry.1) entry.2
  agree : ∀ entry ∈ view.slots, ∀ other ∈ view.slots, entry.1 = other.1 → entry.2 = other.2

/-- Nothing is said to a node, and the command fails. -/
def FailsSilently (said : List Exchange) (outcome : Except CommandError String) : Prop :=
  said = [] ∧ ∃ e, outcome = .error e

/-- How a command and a node talk about an account. -/
structure Talks {σ : Type} (transport : Transport (StateM σ)) (json : Bool) (client : Client) (a : Address)
    (keys : List Word) (said : List Exchange) (outcome : Except CommandError String) : Prop where
  /-- Nothing else is requested, and the replies are those of the node. -/
  own : ∀ x ∈ said, x.request ∈ requests client.block a keys ∧ transport.MaySay x
  /-- If the node answers at once, each request is made once, and the command succeeds. -/
  atOnce : (∀ x ∈ said, x.IsAnswered client) →
    said.map Exchange.request = requests client.block a keys ∧ ∃ text, outcome = .ok text
  /-- After a failure that does not pass nothing is requested, and the command fails. -/
  stops : ∀ before x after, said = before ++ x :: after → x.FailsForGood client →
    after = [] ∧ ∃ e, outcome = .error e
  reports : ∀ text, outcome = .ok text →
    ∃ view, text = view.printed json ∧ Reports client a keys said view

theorem wanted_requests (client : Client) (a : Address) (keys : List Word) :
    (State.empty.wanted (lookedUp a keys)).map client.request =
      requests client.block a keys := by
  rw [wanted_lookedUp, List.map_append, List.map_map]
  rfl

/-- What a ledger holds that was filled by a conversation is what was said. -/
theorem reports_of_holds {client : Client} {a : Address} {keys : List Word} {qs : List Query}
    {said : List Exchange} {xs : List Answered} {view : AccountView}
    (series : client.Series qs said (.ok xs))
    (holds : Holds (State.empty.keepAll xs) a client.block keys view) :
    Reports client a keys said view := by
  have told {q : Query} {v : q.Answer} (held : (State.empty.keepAll xs).held? q = some v) :
      client.IsTold said q v := by
    rcases Ledger.State.of_held?_keepAll held with before | mem
    · rw [show State.empty.held? q = none by cases q <;> rfl] at before
      cases before
    · exact series.told _ mem
  obtain ⟨balance, heldBalance, same⟩ := holds.balance
  have heldSlots := held_of_holdsSlots holds.slots
  refine ⟨holds.address, holds.block, ⟨balance, told heldBalance, same⟩, told holds.nonce,
    told holds.code, keys_of_holdsSlots holds.slots, fun entry mem => told (heldSlots entry mem), ?_⟩
  intro entry mem other mem' key
  have held := heldSlots entry mem
  rw [key, heldSlots other mem'] at held
  exact (Option.some.inj held).symm

section Outcome

variable {σ : Type} {transport : Transport (StateM σ)} {json : Bool} {client : Client} {a : Address}
variable {keys : List Word} {said : List Exchange}

/-- A series with all answers is what is said when the command succeeds. -/
theorem talks_of_answered {xs : List Answered} {view : AccountView}
    (series : client.Series (State.empty.wanted (lookedUp a keys)) said (.ok xs))
    (may : ∀ x ∈ said, transport.MaySay x)
    (holds : Holds (State.empty.keepAll xs) a client.block keys view) :
    Talks transport json client a keys said (.ok (view.printed json)) where
  own x mem := by
    rw [← wanted_requests]
    exact ⟨series.request_mem x mem, may x mem⟩
  atOnce prompt := by
    rw [← wanted_requests]
    exact ⟨(series.atOnce prompt).1, _, rfl⟩
  stops before x after split fails := by
    obtain ⟨_, _, wrong⟩ := series.stops split fails
    cases wrong
  reports text same := by
    cases same
    exact ⟨view, rfl, reports_of_holds series holds⟩

/-- A series that stops is what is said when the command fails. -/
theorem talks_of_failed {cause : Ledger.SourceError} {e : CommandError}
    (series : client.Series (State.empty.wanted (lookedUp a keys)) said (.error cause))
    (may : ∀ x ∈ said, transport.MaySay x) :
    Talks transport json client a keys said (.error e) where
  own x mem := by
    rw [← wanted_requests]
    exact ⟨series.request_mem x mem, may x mem⟩
  atOnce prompt := by
    obtain ⟨_, _, wrong⟩ := series.atOnce prompt
    cases wrong
  stops before x after split fails := ⟨(series.stops split fails).1, e, rfl⟩
  reports text same := nomatch same

end Outcome

/-! ## The command -/

section Run

variable {σ : Type} {s : Surroundings (StateM σ)} {settingsPath : Option String}
variable {options : AccountOptions} {settings : Settings} {client : Client} {a : Address}
variable {keys : List Word} {w w' : σ}

/-- Once it is known what is meant, the account is read and printed. -/
theorem run_account {outcome : Except Ledger.LedgerError AccountView} {l : State} {w₁ : σ}
    (loaded : (s.loadSettings settingsPath).run.run w = (.ok settings, w₁))
    (means : Means settings options client a keys)
    (read : ((readAccount (client.source (s.connect client)) a client.block keys).steps
      .empty).run w₁ = ((outcome, l), w')) :
    (account s settingsPath options).run.run w =
      ((outcome.mapError .ledger).map (·.printed options.json), w') := by
  have prepared : (orFail id (prepare settings options) : Action (StateM σ) _).run.run w₁ =
      (.ok (client, a, keys), w₁) := by
    rw [run_orFail, prepare_eq_ok_iff.mpr means]
    rfl
  have lifted : (liftM ((readAccount (client.source (s.connect client)) a client.block
      keys).run.run .empty : StateM σ _) : Action (StateM σ) _).run.run w₁ =
      (.ok (outcome, l), w') :=
    (run_liftM _).trans (congrArg (fun r => (Except.ok r.1, r.2)) read)
  refine (run_bind_of_ok loaded).trans ((run_bind_of_ok prepared).trans ?_)
  refine (run_bind_of_ok lifted).trans ?_
  cases outcome <;> rfl

/-- If something is amiss the command fails, whatever a node would say. -/
theorem run_account_of_amiss {w₁ : σ}
    (loaded : (s.loadSettings settingsPath).run.run w = (.ok settings, w₁))
    (amiss : Amiss settings options) :
    ∃ e, (account s settingsPath options).run.run w = (.error e, w₁) := by
  cases prepared : prepare settings options with
  | ok told =>
    obtain ⟨client, a, keys⟩ := told
    exact absurd amiss (prepare_eq_ok_iff.mp prepared).not_amiss
  | error e =>
    have failed : (orFail id (prepare settings options) : Action (StateM σ) _).run.run w₁ =
        (.error e, w₁) := by
      rw [run_orFail, prepared]
      rfl
    exact ⟨e, (run_bind_of_ok loaded).trans (run_bind_of_error failed)⟩

end Run

section Recording

variable {σ : Type} (s : Surroundings (StateM σ))

/-- The surroundings, taking down what is said to nodes. -/
def Surroundings.recording : Surroundings (StateM (σ × List Exchange)) where
  fileText path := fun (w, said) =>
    let (text, w') := (s.fileText path).run w
    (text, w', said)
  connect client := (s.connect client).recording

variable {s} {settingsPath : Option String}

/-- Loading settings says nothing to a node. -/
theorem run_loadSettings_recording {outcome : Except CommandError Settings} {w w' : σ}
    (loaded : (s.loadSettings settingsPath).run.run w = (outcome, w')) (said : List Exchange) :
    (s.recording.loadSettings settingsPath).run.run (w, said) = (outcome, w', said) := by
  cases settingsPath with
  | none =>
    cases loaded
    rfl
  | some path =>
    have taken : (s.recording.fileText path).run (w, said) =
        (((s.fileText path).run w).1, ((s.fileText path).run w).2, said) := rfl
    rw [run_loadSettings rfl] at loaded
    rw [run_loadSettings taken]
    cases loaded
    rfl

/-- Once it is known what is meant, the command and the node talk about the account. -/
theorem talks_account {options : AccountOptions} {settings : Settings} {client : Client}
    {a : Address} {keys : List Word} {w w' : σ}
    (loaded : (s.loadSettings settingsPath).run.run w = (.ok settings, w'))
    (means : Means settings options client a keys) :
    ∃ outcome after said,
      (account s.recording settingsPath options).run.run (w, []) = (outcome, after, said) ∧
        Talks (s.connect client) options.json client a keys said outcome := by
  have loaded' := run_loadSettings_recording loaded []
  have looks := @looks_readAccount _ (client.source (s.connect client).recording) .empty a rfl
    client.block keys
  obtain ⟨said, after, series, may⟩ := Node.asksAll_askAll client (s.connect client)
    (State.empty.wanted (lookedUp a keys)) w' []
  cases asked : ((client.source (s.connect client).recording).askAll
    (State.empty.wanted (lookedUp a keys))).run (w', []) with
  | mk answers t =>
    obtain ⟨w₁, said'⟩ := t
    rw [asked] at series after
    cases after
    cases answers with
    | ok xs =>
      obtain ⟨view, run, holds⟩ := looks.answered asked
      exact ⟨_, w₁, said, run_account loaded' means run, talks_of_answered series may holds⟩
    | error cause =>
      obtain ⟨l, run⟩ := looks.failed asked
      exact ⟨_, w₁, said, run_account loaded' means run, talks_of_failed series may⟩

end Recording

/-- What is said to a node to load an account, and to which end. If the settings are not loaded, or
something that is needed is not right or not told, nothing is said and the command fails. Otherwise
the command and the node talk about the account, each slot being asked for once whatever its
spellings. -/
theorem account_asks_each_once {σ : Type} (s : Surroundings (StateM σ))
    (settingsPath : Option String) (options : AccountOptions) (w : σ) :
    ∃ outcome after said,
      (account s.recording settingsPath options).run.run (w, []) = (outcome, after, said) ∧
      (∀ e w', (s.loadSettings settingsPath).run.run w = (.error e, w') →
        FailsSilently said outcome) ∧
      (∀ settings w', (s.loadSettings settingsPath).run.run w = (.ok settings, w') →
        (Amiss settings options → FailsSilently said outcome) ∧
        (¬ Amiss settings options → ∃ client a keys, Means settings options client a keys ∧
          Talks (s.connect client) options.json client a keys said outcome)) ∧
      ∀ text key, Word.SpellsKey text key → Word.storageKey? text = some key := by
  have spelled (text : String) (key : Word) (spells : Word.SpellsKey text key) :=
    Word.storageKey?_of_spells spells
  cases loaded : (s.loadSettings settingsPath).run.run w with
  | mk outcome w' =>
    have loaded' := run_loadSettings_recording loaded []
    cases outcome with
    | error e =>
      refine ⟨.error e, w', [], run_bind_of_error loaded', ?_, nofun, spelled⟩
      exact fun _ _ _ => ⟨rfl, e, rfl⟩
    | ok settings =>
      by_cases amiss : Amiss settings options
      · obtain ⟨e, run⟩ := run_account_of_amiss loaded' amiss
        refine ⟨.error e, w', [], run, nofun, ?_, spelled⟩
        rintro _ _ ⟨⟩
        exact ⟨fun _ => ⟨rfl, e, rfl⟩, fun right => absurd amiss right⟩
      · obtain ⟨client, a, keys, means⟩ := exists_means amiss
        obtain ⟨outcome, after, said, run, talks⟩ := talks_account loaded means
        refine ⟨outcome, after, said, run, nofun, ?_, spelled⟩
        rintro _ _ ⟨⟩
        exact ⟨fun wrong => absurd wrong amiss, fun _ => ⟨client, a, keys, means, talks⟩⟩

/-! ## A node that answers at once -/

/-- A node that answers for a chain, and each request at the first attempt. -/
def prompt (chain : Ledger.Chain) (block : UInt64) : Transport (StateM Unit) where
  send request := pure (Node.chainReply chain block request)
  pause _ := pure ()

theorem isAnswered_of_prompt {chain : Ledger.Chain} {client : Client} {x : Exchange} {q : Query}
    (may : (prompt chain client.block).MaySay x) (about : x.request = client.request q) :
    x.IsAnswered client := by
  obtain ⟨_, said⟩ := may
  have meaning := Node.query?_request client q
  rw [← about] at meaning
  refine ⟨q, chain.answer q, about, ?_⟩
  rw [← said]
  exact Node.understood_of_answers (Node.answers_chainReply meaning) client

/-- A chain with one account. -/
def oneAccount : Ledger.Chain where
  accounts := .insert .empty (Address.ofNat 1)
    { balance := 100, nonce := 7, code := [0x60], storage := .insert .empty 16 9 }

/-- No files, and a node that answers at once. -/
def promptOnly : Surroundings (StateM Unit) where
  fileText _ := pure (.error .notFound)
  connect client := prompt oneAccount client.block

/-- Two slots, of which one is spelled in three ways. -/
def twoSlots : AccountOptions where
  address := "0x0000000000000000000000000000000000000001"
  slots := ["0x10", "16", "5", "0X0010"]
  url := some "http://[::1]:8545"
  block := some 255
  json := true

/-- Each of the two slots is asked for once, after the account. -/
theorem spellings_are_asked_once :
    ∃ text after said,
      (account promptOnly.recording none twoSlots).run.run ((), []) = (.ok text, after, said) ∧
      said.map Exchange.request = [
        ⟨"eth_getBalance", [.string "0x0000000000000000000000000000000000000001", .string "0xff"]⟩,
        ⟨"eth_getTransactionCount",
          [.string "0x0000000000000000000000000000000000000001", .string "0xff"]⟩,
        ⟨"eth_getCode", [.string "0x0000000000000000000000000000000000000001", .string "0xff"]⟩,
        ⟨"eth_getStorageAt",
          [.string "0x0000000000000000000000000000000000000001", .string "0x10", .string "0xff"]⟩,
        ⟨"eth_getStorageAt",
          [.string "0x0000000000000000000000000000000000000001", .string "0x5",
            .string "0xff"]⟩] := by
  have prepared : prepare {} twoSlots =
      .ok (⟨"http://[::1]:8545", 255, {}⟩, Address.ofNat 1, [16, 16, 5, 16]) := rfl
  obtain ⟨outcome, after, said, run, _, loaded, _⟩ :=
    account_asks_each_once promptOnly none twoSlots ()
  obtain ⟨client, a, keys, means, talks⟩ :=
    (loaded {} () rfl).2 (prepare_eq_ok_iff.mp prepared).not_amiss
  have answered : ∀ x ∈ said, x.IsAnswered client := by
    intro x mem
    obtain ⟨own, may⟩ := talks.own x mem
    rw [← wanted_requests] at own
    obtain ⟨q, _, about⟩ := List.mem_map.mp own
    exact isAnswered_of_prompt may about.symm
  obtain ⟨requested, text, rfl⟩ := talks.atOnce answered
  cases prepared.symm.trans (prepare_eq_ok_iff.mpr means)
  exact ⟨text, after, said, run, requested.trans rfl⟩

end EvmInspect.Command
