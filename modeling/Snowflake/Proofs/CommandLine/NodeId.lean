import Mathlib.Logic.Function.Basic
import Snowflake.CommandLine.Job
import Snowflake.Proofs.Codec.RoundTrip
import Snowflake.Proofs.Registry.Environment

/-!
# The node id in the environment: two readers of one variable

The variable of the default node id has two readers. The settings drop the blanks around
its value and pass a bad value over; the command line takes the value as it stands, a
number of 64 bits, looks at its range later, and fails on a bad one. What the command line
relies on is that its words are read by something that takes the variable so
(`TakesNodeId`), as `clap` documents it of an option with a variable and a number for its
value. With `value` in the variable and the arguments otherwise in order:

    settings      = (readUnsigned? wordMax (trim value)).filter (· ≤ maxNodeId)    (readNodeId?_eq)
    command line  = readUnsigned? wordMax value, then a job if the node id is in range
                                                                        (ofArguments_withNodeId)

A number has no blanks around it (`trim_of_readUnsigned?`), so where the command line
reads a number the settings read the same. `Request.ofArguments` is such a reading
(`takesNodeId_ofArguments`).
-/

namespace Snowflake

/-! ## Numbers and the blanks around them -/

namespace Text

theorem isBlank_of_isDigit {c : Char} (h : c.isDigit = true) : isBlank c = false := by
  have hdigit : 48 ≤ c.toNat ∧ c.toNat ≤ 57 := by
    simp only [Char.isDigit, ge_iff_le, Bool.and_eq_true, decide_eq_true_eq, UInt32.le_iff_toNat_le] at h
    exact h
  have hapart : ∀ r ∈ blankRanges, r.2 < 48 ∨ 57 < r.1 := by decide
  refine List.any_eq_false.2 fun r hr => ?_
  have := hapart r hr
  simp only [Bool.and_eq_true, decide_eq_true_eq]
  omega

namespace Decimal

/-- A number has no blanks in it. -/
theorem Unsigned.isBlank_eq_false {n : Nat} {cs : List Char} (h : Unsigned n cs) : ∀ c ∈ cs, isBlank c = false := by
  cases h with
  | plain _ hdigits => exact fun c hc => isBlank_of_isDigit (hdigits c hc)
  | signed _ hdigits =>
    have hplus : isBlank '+' = false := by decide
    exact List.forall_mem_cons.2 ⟨hplus, fun c hc => isBlank_of_isDigit (hdigits c hc)⟩

/-- A number has no blanks around it. -/
theorem trim_of_readUnsigned? {max n : Nat} {cs : List Char} (h : readUnsigned? max cs = some n) :
    trim cs = cs :=
  (bare_of_forall (readUnsigned?_eq_some_iff_unsigned.1 h).1.isBlank_eq_false).trimmed.trim_eq

/-- To read with a smaller bound is to read with the larger one and then to look at the smaller. -/
theorem readUnsigned?_eq_filter {small large : Nat} (h : small ≤ large) (cs : List Char) :
    readUnsigned? small cs = (readUnsigned? large cs).filter (· ≤ small) := by
  ext n
  simp only [Option.filter_eq_some_iff, readUnsigned?_eq_some, decide_eq_true_eq]
  constructor
  · rintro ⟨hdigits, hvalue, hn⟩
    exact ⟨⟨hdigits, hvalue, by omega⟩, hn⟩
  · rintro ⟨⟨hdigits, hvalue, -⟩, hn⟩
    exact ⟨hdigits, hvalue, hn⟩

end Decimal

end Text

/-- The settings read a number of 64 bits between the blanks, and keep it if it is in range. -/
theorem Settings.readNodeId?_eq (value : String) :
    readNodeId? value
      = (Text.Decimal.readUnsigned? wordMax (Text.trim value.toList)).filter (· ≤ maxNodeId) :=
  Text.Decimal.readUnsigned?_eq_filter (by decide) _

namespace CommandLine

/-! ## What the command line makes of its arguments -/

theorem bind_eq_ok {ε α β : Type} {x : Except ε α} {f : α → Except ε β} {b : β} :
    (x >>= f) = .ok b ↔ ∃ a, x = .ok a ∧ f a = .ok b := by
  cases x with
  | error e => simp [bind, Except.bind]
  | ok a => simp [bind, Except.bind]

theorem ok_bind {ε α β : Type} (a : α) (f : α → Except ε β) : (Except.ok a >>= f) = f a := rfl

theorem map_eq_ok {ε α β : Type} {x : Except ε α} {f : α → β} {b : β} :
    x.map f = .ok b ↔ ∃ a, x = .ok a ∧ f a = b := by
  cases x with
  | error e => simp [Except.map]
  | ok a => simp [Except.map]

/-- Why the arguments lead to no job. -/
inductive Rejection where
  | usage (error : UsageError)
  | job (error : JobError)
deriving DecidableEq, Repr

/-- What reads arguments as a request. -/
abbrev ArgumentReading : Type := Environment → List String → Except UsageError Request

/-- The environment with a value in the variable of the node id. -/
def withNodeId (env : Environment) (value : String) : Environment :=
  Function.update env Settings.nodeIdVariable (some value)

/-- What the command line relies on where its arguments are read: a value in the variable is taken,
as it stands, where a request for ids leaves the node id open, and must be a number of 64 bits. -/
structure TakesNodeId (read : ArgumentReading) : Prop where
  read_withNodeId : ∀ env args (request : GenerateRequest) value, env Settings.nodeIdVariable = none →
    read env args = .ok (.generate request) → request.nodeId = none →
    read (withNodeId env value) args
      = (Given.readNumber .nodeId value).map fun n => .generate { request with nodeId := some n }

/-- The job that the arguments ask for: first the request is read, then its numbers and its format
are looked at. -/
def Job.ofArguments (read : ArgumentReading) (env : Environment) (args : List String) : Except Rejection Job := do
  let request ← (read env args).mapError .usage
  (Job.ofRequest request).mapError .job

theorem le_of_mem_some {nodeId : Nat} (h : nodeId ≤ maxNodeId) : ∀ n ∈ some nodeId, n ≤ maxNodeId := by
  rintro _ ⟨⟩
  exact h

/-- The job with its node id replaced. -/
def GenerateJob.onNode (job : GenerateJob) (nodeId : Nat) (h : nodeId ≤ maxNodeId) : GenerateJob :=
  { job with nodeId := some nodeId, nodeId_le := le_of_mem_some h }

/-- The variable is not set, and the arguments ask for ids, are in order and name no node id. -/
structure LeavesNode (read : ArgumentReading) (env : Environment) (args : List String) (job : GenerateJob) :
    Prop where
  unset : env Settings.nodeIdVariable = none
  accepted : Job.ofArguments read env args = .ok (.generate job)
  nodeId : job.nodeId = none

theorem Job.ofArguments_eq_ok {read : ArgumentReading} {env : Environment} {args : List String} {job : Job} :
    Job.ofArguments read env args = .ok job
      ↔ ∃ request, read env args = .ok request ∧ Job.ofRequest request = .ok job := by
  unfold Job.ofArguments
  constructor
  · intro h
    obtain ⟨request, hrequest, h⟩ := bind_eq_ok.1 h
    exact ⟨request, Encoding.mapError_eq_ok.1 hrequest, Encoding.mapError_eq_ok.1 h⟩
  · rintro ⟨request, hrequest, h⟩
    exact bind_eq_ok.2 ⟨request, Encoding.mapError_eq_ok.2 hrequest, Encoding.mapError_eq_ok.2 h⟩

/-! ## The options filled in from the environment -/

/-- The options of `generate` that are filled in before the node id. -/
def optionsBefore : List OptionName := [.format, .encoding, .count]

section

variable {env : Environment} {value : String}

theorem ne_nodeIdVariable {option : OptionName} {name : String} (h : option ≠ .nodeId)
    (hname : option.envName? = some name) : name ≠ Settings.nodeIdVariable := by
  cases option with
  | format =>
    cases hname
    decide
  | encoding =>
    cases hname
    decide
  | count => cases hname
  | nodeId => exact absurd rfl h

theorem fill_withNodeId (given : Given) {option : OptionName} (h : option ≠ .nodeId) :
    given.fill (withNodeId env value) option = given.fill env option := by
  have henv : option.envName?.bind (withNodeId env value) = option.envName?.bind env := by
    cases hname : option.envName? with
    | none => rfl
    | some name => exact Function.update_of_ne (ne_nodeIdVariable h hname) ..
  simp only [Given.fill, henv]

theorem foldlM_fill_withNodeId (given : Given) :
    optionsBefore.foldlM (Given.fill (withNodeId env value)) given
      = optionsBefore.foldlM (Given.fill env) given := by
  simp [optionsBefore, fill_withNodeId]

theorem fill_nodeId_of_unset (h : env Settings.nodeIdVariable = none) (given : Given) :
    given.fill env .nodeId = .ok given := by
  have henv : OptionName.nodeId.envName?.bind env = none := h
  unfold Given.fill
  rw [henv]
  cases given.has .nodeId <;> rfl

theorem fill_nodeId_withNodeId {given : Given} (h : given.nodeId = none) :
    given.fill (withNodeId env value) .nodeId
      = (Given.readNumber .nodeId value).map fun n => { given with nodeId := some n } := by
  have henv : OptionName.nodeId.envName?.bind (withNodeId env value) = some value := by
    show withNodeId env value Settings.nodeIdVariable = some value
    exact Function.update_self ..
  have hnew : given.has .nodeId = false := by simp [Given.has, h]
  simp only [Given.fill, henv, hnew, Given.accept]

end

/-! ## From the words to the request -/

/-- Which command is asked for, and in which words, does not depend on the environment. -/
theorem Request.exists_ofCommand {env : Environment} {args : List String} {request : Request}
    (h : Request.ofArguments env args = .ok request) :
    ∃ command words, ∀ env', Request.ofArguments env' args = Request.ofCommand env' command words := by
  fun_cases Request.ofArguments env args with
  | case1 => cases h
  | case2 rest => cases h
  | case3 text rest hhelp command hname =>
    refine ⟨command, rest, fun env' => ?_⟩
    simp only [Request.ofArguments, hname]
  | case4 text rest hhelp hname hword =>
    simp only [Request.ofArguments, hname, hword] at h
    cases h
  | case5 text rest hhelp hname hword =>
    simp only [Request.ofArguments, hname] at h
    cases h

theorem Request.ofCommand_generate (env : Environment) (words : List String) :
    Request.ofCommand env .generate words = (do
      let r ← Reading.arguments .generate {} words
      let given ← optionsBefore.foldlM (Given.fill env) r.given
      let given ← given.fill env .nodeId
      given.request r.ids .generate) := by
  show (do
    let r ← Reading.arguments .generate {} words
    let given ← (optionsBefore ++ [OptionName.nodeId]).foldlM (Given.fill env) r.given
    given.request r.ids .generate) = _
  simp only [List.foldlM_append, List.foldlM_cons, List.foldlM_nil, bind_assoc, bind_pure]

theorem Given.request_generate {given : Given} {ids : List String} {request : GenerateRequest}
    (h : given.request ids .generate = .ok (.generate request)) (nodeId : Option Nat) :
    { given with nodeId }.request ids .generate = .ok (.generate { request with nodeId }) := by
  cases h
  rfl

theorem Given.command_of_generate {given : Given} {ids : List String} {command : Command}
    {request : GenerateRequest} (h : given.request ids command = .ok (.generate request)) :
    command = .generate := by
  cases command with
  | generate => rfl
  | inspect =>
    simp only [Given.request] at h
    split at h
    · cases h
    · split at h <;> cases h

/-- What a request for ids without a node id is made of, before a node id is filled in. -/
theorem Request.exists_given {env : Environment} {args : List String} {request : GenerateRequest}
    (hunset : env Settings.nodeIdVariable = none) (hread : Request.ofArguments env args = .ok (.generate request))
    (hnone : request.nodeId = none) :
    ∃ words r given,
      (∀ env', Request.ofArguments env' args = Request.ofCommand env' .generate words) ∧
      Reading.arguments .generate {} words = .ok r ∧
      optionsBefore.foldlM (Given.fill env) r.given = .ok given ∧ given.nodeId = none ∧
      given.request r.ids .generate = .ok (.generate request) := by
  obtain ⟨command, words, hcommand⟩ := Request.exists_ofCommand hread
  rw [hcommand env] at hread
  obtain rfl : command = .generate := by
    obtain ⟨r, -, hfill⟩ := bind_eq_ok.1 hread
    obtain ⟨given, -, hrequest⟩ := bind_eq_ok.1 hfill
    exact Given.command_of_generate hrequest
  rw [Request.ofCommand_generate] at hread
  obtain ⟨r, hr, hbefore⟩ := bind_eq_ok.1 hread
  obtain ⟨given, hgiven, hlast⟩ := bind_eq_ok.1 hbefore
  -- the variable is not set, so no node id is filled in
  rw [fill_nodeId_of_unset hunset, ok_bind] at hlast
  have hgivenNone : given.nodeId = none := by
    cases hlast
    exact hnone
  exact ⟨words, r, given, hcommand, hr, hgiven, hgivenNone, hlast⟩

theorem Request.takesNodeId_ofArguments : TakesNodeId Request.ofArguments where
  read_withNodeId := by
    intro env args request value hunset hread hnone
    obtain ⟨words, r, given, hcommand, hr, hgiven, hgivenNone, hrequest⟩ :=
      Request.exists_given hunset hread hnone
    rw [hcommand, Request.ofCommand_generate, hr, ok_bind, foldlM_fill_withNodeId, hgiven, ok_bind,
      fill_nodeId_withNodeId hgivenNone]
    cases Given.readNumber .nodeId value with
    | error e => rfl
    | ok n => exact Given.request_generate hrequest (some n)

/-! ## From the request to the job -/

theorem Job.exists_generate {request : Request} {job : GenerateJob}
    (h : Job.ofRequest request = .ok (.generate job)) :
    ∃ q, request = .generate q ∧ Job.ofGenerateRequest q = .ok job := by
  cases request with
  | generate q =>
    obtain ⟨_, hq, hjob⟩ := map_eq_ok.1 h
    cases hjob
    exact ⟨q, rfl, hq⟩
  | inspect q =>
    obtain ⟨_, -, hjob⟩ := map_eq_ok.1 h
    cases hjob

theorem Job.val_of_nodeIdInRange {o : Option Nat} {v : { o : Option Nat // ∀ n ∈ o, n ≤ maxNodeId }}
    (h : Job.nodeIdInRange o = .ok v) : v.val = o := by
  unfold Job.nodeIdInRange at h
  split at h
  · cases h
    rfl
  · split at h
    · cases h
      rfl
    · cases h

/-- A job is made of a request with a count, a node id and a format that may be used. -/
theorem Job.of_ofGenerateRequest {request : GenerateRequest} {job : GenerateJob}
    (h : Job.ofGenerateRequest request = .ok job) :
    Job.formatNamed request.format = .ok job.format ∧ job.encoding = request.encoding ∧
      job.count = request.count ∧ job.nodeId = request.nodeId := by
  unfold Job.ofGenerateRequest at h
  split at h
  · obtain ⟨nodeId, hnodeId, h⟩ := bind_eq_ok.1 h
    obtain ⟨format, hformat, h⟩ := bind_eq_ok.1 h
    cases h
    exact ⟨hformat, rfl, rfl, Job.val_of_nodeIdInRange hnodeId⟩
  · cases h

/-- With another node id a request that becomes a job can be refused for the node id only. -/
theorem Job.ofGenerateRequest_onNode {request : GenerateRequest} {job : GenerateJob}
    (h : Job.ofGenerateRequest request = .ok job) (n : Nat) :
    Job.ofGenerateRequest { request with nodeId := some n }
      = if hn : n ≤ maxNodeId then .ok (job.onNode n hn) else .error (.nodeIdTooLarge n) := by
  obtain ⟨hformat, hencoding, hcount, -⟩ := Job.of_ofGenerateRequest h
  unfold Job.ofGenerateRequest Job.nodeIdInRange
  rw [dif_pos (hcount ▸ job.count_pos)]
  by_cases hn : n ≤ maxNodeId
  · simp only [dif_pos hn, ok_bind, hformat, GenerateJob.onNode, hencoding, hcount]
    rfl
  · simp only [dif_neg hn]
    rfl

namespace LeavesNode

variable {read : ArgumentReading} {env : Environment} {args : List String} {job : GenerateJob}

theorem exists_request (h : LeavesNode read env args job) :
    ∃ request, read env args = .ok (.generate request) ∧ request.nodeId = none ∧
      Job.ofGenerateRequest request = .ok job := by
  obtain ⟨_, hread, haccepted⟩ := Job.ofArguments_eq_ok.1 h.accepted
  obtain ⟨request, rfl, hjob⟩ := Job.exists_generate haccepted
  obtain ⟨-, -, -, hnodeId⟩ := Job.of_ofGenerateRequest hjob
  exact ⟨request, hread, hnodeId.symm.trans h.nodeId, hjob⟩

/-- With a value in the variable the job is on the node that the value names, and nothing else about it
changes; where the value names none, it is why there is no job. -/
theorem ofArguments_withNodeId (hread : TakesNodeId read) (h : LeavesNode read env args job) (value : String) :
    Job.ofArguments read (withNodeId env value) args
      = match Text.Decimal.readUnsigned? wordMax value.toList with
        | none => .error (.usage (.badNumber .nodeId value))
        | some n =>
          if hn : n ≤ maxNodeId then .ok (.generate (job.onNode n hn)) else .error (.job (.nodeIdTooLarge n)) := by
  obtain ⟨request, hrequest, hnone, hjob⟩ := h.exists_request
  unfold Job.ofArguments
  rw [hread.read_withNodeId env args request value h.unset hrequest hnone]
  unfold Given.readNumber
  cases hn : Text.Decimal.readUnsigned? wordMax value.toList with
  | none => rfl
  | some n =>
    show ((Job.ofGenerateRequest { request with nodeId := some n }).map Job.generate).mapError Rejection.job = _
    rw [Job.ofGenerateRequest_onNode hjob]
    by_cases hle : n ≤ maxNodeId
    · simp only [dif_pos hle]
      rfl
    · simp only [dif_neg hle]
      rfl

/-- The two readers side by side: no number for the command line, or one node for both, or a number
out of range for both. -/
theorem readers_cases (hread : TakesNodeId read) (h : LeavesNode read env args job) (value : String) :
    (Text.Decimal.readUnsigned? wordMax value.toList = none ∧
      Job.ofArguments read (withNodeId env value) args = .error (.usage (.badNumber .nodeId value))) ∨
    (∃ n hn, Job.ofArguments read (withNodeId env value) args = .ok (.generate (job.onNode n hn)) ∧
      Settings.readNodeId? value = some n) ∨
    (∃ n, maxNodeId < n ∧ Job.ofArguments read (withNodeId env value) args = .error (.job (.nodeIdTooLarge n)) ∧
      Settings.readNodeId? value = none) := by
  rw [ofArguments_withNodeId hread h value, Settings.readNodeId?_eq]
  cases hvalue : Text.Decimal.readUnsigned? wordMax value.toList with
  | none => exact .inl ⟨rfl, rfl⟩
  | some n =>
    rw [Text.Decimal.trim_of_readUnsigned? hvalue, hvalue]
    rcases Nat.lt_or_ge maxNodeId n with hn | hn
    · exact .inr (.inr ⟨n, hn, dif_neg (Nat.not_le.2 hn), by simp [hn]⟩)
    · exact .inr (.inl ⟨n, hn, dif_pos hn, by simp [hn]⟩)

end LeavesNode

theorem defaultNodeId_withNodeId (env : Environment) (value : String) :
    (Settings.ofEnvironment (withNodeId env value)).defaultNodeId = Settings.readNodeId? value := by
  have henv : withNodeId env value Settings.nodeIdVariable = some value := Function.update_self ..
  exact Settings.defaultNodeId_of_some henv

/-- The node id of a job has a seat in every registry and a generator of its own. -/
theorem GenerateJob.node_usable {job : GenerateJob} {n : Nat} (h : job.nodeId = some n) :
    (∀ r : Registry, ∃ seated, r.lookUp n = .ok seated ∧ seated.generator.nodeId = n) ∧
      ∃ g, Generator.ofNodeId n = .ok g ∧ g.nodeId = n := by
  have hn : n ≤ maxNodeId := job.nodeId_le n h
  constructor
  · intro r
    exact ⟨r.seat n hn, dif_pos hn, r.nodeId_seat n hn⟩
  · exact ⟨{ nodeId := n, nodeId_le := hn }, dif_pos hn, rfl⟩

/-- **The node id of the variable.** However the arguments are read, as long as the variable is taken:
let arguments that name no node ask for ids and be in order, and put any value in the variable. If
the command line accepts it, the job is the same one on some node, and the settings read that node.
A value without blanks around it is accepted by the command line when and only when the settings read
a node in it. Where they read none the command line fails, over the value or over the node id in it.
And every node id of a job has its generator, in every registry and on its own. -/
theorem node_of_variable_agrees {read : ArgumentReading} (hread : TakesNodeId read) {env : Environment}
    {args : List String} {job : GenerateJob} (h : LeavesNode read env args job) (value : String) :
    (∀ accepted, Job.ofArguments read (withNodeId env value) args = .ok accepted →
      ∃ n hn, accepted = .generate (job.onNode n hn) ∧
        (Settings.ofEnvironment (withNodeId env value)).defaultNodeId = some n) ∧
    (Text.trim value.toList = value.toList →
      ((∃ accepted, Job.ofArguments read (withNodeId env value) args = .ok accepted) ↔
        ∃ n, (Settings.ofEnvironment (withNodeId env value)).defaultNodeId = some n)) ∧
    ((Settings.ofEnvironment (withNodeId env value)).defaultNodeId = none →
      Job.ofArguments read (withNodeId env value) args = .error (.usage (.badNumber .nodeId value)) ∨
      ∃ n, maxNodeId < n ∧
        Job.ofArguments read (withNodeId env value) args = .error (.job (.nodeIdTooLarge n))) ∧
    ∀ env' args' job' n, Job.ofArguments read env' args' = .ok (.generate job') → job'.nodeId = some n →
      (∀ r : Registry, ∃ seated, r.lookUp n = .ok seated ∧ seated.generator.nodeId = n) ∧
      ∃ g, Generator.ofNodeId n = .ok g ∧ g.nodeId = n := by
  rw [defaultNodeId_withNodeId]
  refine ⟨?_, ?_, ?_, fun _ _ _ _ _ hn => GenerateJob.node_usable hn⟩
  · intro accepted haccepted
    rcases h.readers_cases hread value with ⟨-, herror⟩ | ⟨n, hn, hok, hsettings⟩ | ⟨n, -, herror, -⟩
    · cases haccepted.symm.trans herror
    · exact ⟨n, hn, Except.ok.inj (haccepted.symm.trans hok), hsettings⟩
    · cases haccepted.symm.trans herror
  · intro htrim
    rcases h.readers_cases hread value with ⟨hvalue, herror⟩ | ⟨n, hn, hok, hsettings⟩ | ⟨n, -, herror, hsettings⟩
    · have hsettings : Settings.readNodeId? value = none := by
        rw [Settings.readNodeId?_eq, htrim, hvalue]
        rfl
      simp [herror, hsettings]
    · simp [hok, hsettings]
    · simp [herror, hsettings]
  · intro hnone
    rcases h.readers_cases hread value with ⟨-, herror⟩ | ⟨n, hn, -, hsettings⟩ | ⟨n, hn, herror, -⟩
    · exact .inl herror
    · cases hsettings.symm.trans hnone
    · exact .inr ⟨n, hn, herror⟩

theorem le_of_mem_none : ∀ n ∈ (none : Option Nat), n ≤ maxNodeId := by
  rintro _ ⟨⟩

/-- Two ids in the default format, on no node in particular. -/
def twoIds : GenerateJob :=
  { format := .id64, encoding := .raw, count := 2, nodeId := none, count_pos := Nat.two_pos,
    nodeId_le := le_of_mem_none }

/-- A plus sign and zeros in front are no blanks, so a value with them is accepted; one that is no
number at all is an error, not a job on another node. -/
theorem node_of_variable_at_a_sign :
    let args := ["generate", "-n", "2"]
    let withValue := fun value => Job.ofArguments Request.ofArguments (withNodeId (fun _ => none) value) args
    TakesNodeId Request.ofArguments ∧ LeavesNode Request.ofArguments (fun _ => none) args twoIds ∧
    Settings.readNodeId? "+0042" = some 42 ∧
    (∃ accepted, withValue "+0042" = .ok accepted) ∧
    (withValue "node-3" = .error (.usage (.badNumber .nodeId "node-3")) ∨
      ∃ n, maxNodeId < n ∧ withValue "node-3" = .error (.job (.nodeIdTooLarge n))) := by
  intro args withValue
  have htakes : TakesNodeId Request.ofArguments := Request.takesNodeId_ofArguments
  have hleaves : LeavesNode Request.ofArguments (fun _ => none) args twoIds := ⟨rfl, rfl, rfl⟩
  have hsigned : Settings.readNodeId? "+0042" = some 42 := by decide +kernel
  have hbad : Settings.readNodeId? "node-3" = none := by decide +kernel
  refine ⟨htakes, hleaves, hsigned, ?_, ?_⟩
  · refine ((node_of_variable_agrees htakes hleaves "+0042").2.1 (by decide +kernel)).2 ⟨42, ?_⟩
    rw [defaultNodeId_withNodeId, hsigned]
  · refine (node_of_variable_agrees htakes hleaves "node-3").2.2.1 ?_
    rw [defaultNodeId_withNodeId, hbad]

end CommandLine

end Snowflake
