import Hakuraku.Core.Proto
import Hakuraku.Lib.Columns
import Hakuraku.Lib.Machine
import Mathlib.Data.List.Induction

/-!
# Probing

Reference: `pulse-agent/src/prober.rs`; `pulse-core/src/error.rs`, `ProbeError`.

`probe_tcp_targets` spawns a task for every target and collects what the tasks return in the order
of the targets. The tasks may run before all of them are spawned, end in any order, and panic.

A `ProbeResult` is the text of a target with a latency or the text of an error. The texts lose
nothing: from a result a reader makes out host and port, and what came of the probe (`readResult`).
So the results of every run say of each target, at its place, what its own task has found
(`probes_are_reported`).

What the resolver and the network do is given (`Attempt`). Of the addresses of a host only the first
is tried.
-/

namespace Hakuraku.Agent

/-! ## One probe -/

/-- `ProbeError`; an I/O error is its text. -/
inductive ProbeError where
  | timeout (target : String) (timeoutMs : UInt32)
  | connectionRefused (target : String)
  | dnsFailure (host detail : String)
  | io (error : String)
deriving DecidableEq

/-- The `Display` text of a `ProbeError`. -/
def ProbeError.display : ProbeError → String
  | .timeout target timeoutMs =>
    "probe timed out after " ++ toString timeoutMs ++ "ms to " ++ target
  | .connectionRefused target => "connection refused to " ++ target
  | .dnsFailure host detail => "DNS resolution failed for " ++ host ++ ": " ++ detail
  | .io error => "probe I/O error: " ++ error

/-- What connecting to an address comes to. -/
inductive Connection where
  /-- The timeout is over first. -/
  | elapsed
  /-- An error of the kind `ConnectionRefused`. -/
  | refused
  | failed (error : String)
  | established (elapsedUs : ℕ)

/-- What a probe meets. -/
structure Attempt where
  /-- The addresses of the target, or the error of the resolver. -/
  addrs : Except String (List String)
  connect : String → Connection

/-- `tcp_probe_inner`, with the timeout in milliseconds. -/
def tcpProbeInner (attempt : Attempt) (target : String) (timeout : ℕ) : Except ProbeError UInt64 :=
  match attempt.addrs with
  | .error detail => .error (.dnsFailure target detail)
  | .ok [] => .error (.dnsFailure target "no addresses resolved")
  | .ok (addr :: _) =>
    match attempt.connect addr with
    | .elapsed => .error (.timeout target (UInt32.ofNat timeout))
    | .refused => .error (.connectionRefused target)
    | .failed error => .error (.io error)
    | .established elapsedUs => .ok (UInt64.ofNat elapsedUs)

/-- The text of a target. -/
def targetText (host : String) (port : UInt16) : String := host ++ ":" ++ toString port

/-- `tcp_probe`. -/
def tcpProbe (attempt : Attempt) (host : String) (port : UInt16) (timeoutMs : UInt32) :
    ProbeResult :=
  match tcpProbeInner attempt (targetText host port) timeoutMs.toNat with
  | .ok latencyUs => ⟨targetText host port, true, latencyUs, ""⟩
  | .error e => ⟨targetText host port, false, 0, e.display⟩

/-! ## What a result says -/

/-- What comes of a probe. -/
inductive Finding where
  | unresolved (detail : String)
  | timedOut (timeoutMs : UInt32)
  | refused
  | failed (error : String)
  | reached (latencyUs : UInt64)
deriving DecidableEq

/-- What a probe with a timeout finds. -/
def Attempt.finding (attempt : Attempt) (timeoutMs : UInt32) : Finding :=
  match attempt.addrs with
  | .error detail => .unresolved detail
  | .ok [] => .unresolved "no addresses resolved"
  | .ok (addr :: _) =>
    match attempt.connect addr with
    | .elapsed => .timedOut timeoutMs
    | .refused => .refused
    | .failed error => .failed error
    | .established elapsedUs => .reached (UInt64.ofNat elapsedUs)

/-- What is known of a target in the end. -/
inductive Report where
  | probed (host : String) (port : UInt16) (finding : Finding)
  /-- The task has panicked. -/
  | panicked (error : String)
deriving DecidableEq

/-- The host and the port of a target: the port comes after the last colon. -/
def readTarget (cs : List Char) : Option (String × UInt16) := do
  let (port, host) ← Text.splitOnce ':' cs.reverse
  let port ← Decimal.parseUnsigned (2 ^ 16) port.reverse
  some (String.ofList host.reverse, UInt16.ofNat port)

/-- The timeout in an error's text, after its beginning. -/
def readTimeout (cs : List Char) : Option Finding := do
  let (timeoutMs, _) ← Text.splitOnce 'm' cs
  let timeoutMs ← Decimal.parseU32 timeoutMs
  some (.timedOut timeoutMs)

/-- What the text of an error says about a target. -/
def readError (target cs : List Char) : Option Finding :=
  match Text.stripPrefix "probe timed out after ".toList cs with
  | some rest => readTimeout rest
  | none =>
    match Text.stripPrefix "connection refused to ".toList cs with
    | some _ => some .refused
    | none =>
      match Text.stripPrefix "probe I/O error: ".toList cs with
      | some rest => some (.failed (String.ofList rest))
      | none =>
        (Text.stripPrefix ("DNS resolution failed for ".toList ++ (target ++ ": ".toList)) cs).map
          fun rest => .unresolved (String.ofList rest)

/-- What a result says. The text of a panicked task's target has no colon. -/
def readResult (r : ProbeResult) : Option Report :=
  match readTarget r.target.toList with
  | some (host, port) =>
    (if r.success then some (.reached r.latencyUs)
      else readError r.target.toList r.errorMessage.toList).map (.probed host port)
  | none =>
    (Text.stripPrefix "task panicked: ".toList r.errorMessage.toList).map
      fun rest => .panicked (String.ofList rest)

/-- A number is written with digits only. -/
theorem not_mem_repr {c : Char} (hc : c.isDigit = false) (n : ℕ) : c ∉ n.repr.toList := fun h =>
  absurd (Decimal.isDigit_of_mem_repr h) (by simp [hc])

theorem toList_targetText (host : String) (port : UInt16) :
    (targetText host port).toList = host.toList ++ ':' :: port.toNat.repr.toList := by
  have hport : toString port = port.toNat.repr := rfl
  simp [targetText, hport]

/-- **Host and port are read back**, whatever the host: a port has no colon. -/
theorem readTarget_targetText (host : String) (port : UInt16) :
    readTarget (targetText host port).toList = some (host, port) := by
  have hcolon : ':' ∉ port.toNat.repr.toList.reverse :=
    mt List.mem_reverse.mp (not_mem_repr (by decide) _)
  have hsplit : (targetText host port).toList.reverse =
      port.toNat.repr.toList.reverse ++ ':' :: host.toList.reverse := by
    simp [toList_targetText]
  rw [readTarget, hsplit, Text.splitOnce_append hcolon]
  simp only [Option.bind_eq_bind, Option.bind_some, List.reverse_reverse, String.ofList_toList,
    Decimal.parseUnsigned_repr port.toNat_lt, UInt16.ofNat_toNat]

/-- The beginnings of the texts tell the errors apart. -/
theorem stripPrefix_eq_none {a b : List Char} (hab : a.isPrefixOf b = false)
    (hba : b.isPrefixOf a = false) (cs : List Char) : Text.stripPrefix a (b ++ cs) = none := by
  rw [Text.stripPrefix, if_neg]
  intro h
  rcases List.prefix_or_prefix_of_prefix (List.isPrefixOf_iff_prefix.mp h)
    (List.prefix_append b cs) with hpre | hpre
  · exact absurd (List.isPrefixOf_iff_prefix.mpr hpre) (by simp [hab])
  · exact absurd (List.isPrefixOf_iff_prefix.mpr hpre) (by simp [hba])

section Errors

variable (target : List Char)

theorem toList_display_timeout (host : String) (timeoutMs : UInt32) :
    (ProbeError.timeout host timeoutMs).display.toList = "probe timed out after ".toList ++
      (timeoutMs.toNat.repr.toList ++ 'm' :: ("s to ".toList ++ host.toList)) := by
  have hms : "ms to ".toList = 'm' :: "s to ".toList := by simp
  calc (ProbeError.timeout host timeoutMs).display.toList
      = ("probe timed out after " ++ timeoutMs.toNat.repr ++ "ms to " ++ host).toList := rfl
    _ = _ := by
      simp only [String.toList_append, List.append_assoc, hms, List.cons_append]

theorem readError_timeout (host : String) (timeoutMs : UInt32) :
    readError target (ProbeError.timeout host timeoutMs).display.toList =
      some (.timedOut timeoutMs) := by
  rw [toList_display_timeout, readError, Text.stripPrefix_append]
  dsimp only
  rw [readTimeout, Text.splitOnce_append (not_mem_repr (by decide) _)]
  simp only [Option.bind_eq_bind, Option.bind_some, Decimal.parseU32_repr]

theorem readError_connectionRefused (host : String) :
    readError target (ProbeError.connectionRefused host).display.toList = some .refused := by
  have htext : (ProbeError.connectionRefused host).display.toList =
      "connection refused to ".toList ++ host.toList := String.toList_append
  rw [htext, readError, Text.stripPrefix_append,
    stripPrefix_eq_none (by decide +kernel) (by decide +kernel)]

theorem readError_io (error : String) :
    readError target (ProbeError.io error).display.toList = some (.failed error) := by
  have htext : (ProbeError.io error).display.toList =
      "probe I/O error: ".toList ++ error.toList := String.toList_append
  rw [htext, readError, Text.stripPrefix_append,
    stripPrefix_eq_none (by decide +kernel) (by decide +kernel),
    stripPrefix_eq_none (by decide +kernel) (by decide +kernel)]
  dsimp only
  rw [String.ofList_toList]

theorem readError_dnsFailure (host detail : String) :
    readError host.toList (ProbeError.dnsFailure host detail).display.toList =
      some (.unresolved detail) := by
  have htext : (ProbeError.dnsFailure host detail).display.toList =
      "DNS resolution failed for ".toList ++ (host.toList ++ (": ".toList ++ detail.toList)) :=
    calc (ProbeError.dnsFailure host detail).display.toList
        = ("DNS resolution failed for " ++ host ++ ": " ++ detail).toList := rfl
      _ = _ := by simp only [String.toList_append, List.append_assoc]
  have hjoined : "DNS resolution failed for ".toList ++
      (host.toList ++ (": ".toList ++ detail.toList)) =
      ("DNS resolution failed for ".toList ++ (host.toList ++ ": ".toList)) ++ detail.toList := by
    simp only [List.append_assoc]
  rw [htext, readError, stripPrefix_eq_none (by decide +kernel) (by decide +kernel),
    stripPrefix_eq_none (by decide +kernel) (by decide +kernel),
    stripPrefix_eq_none (by decide +kernel) (by decide +kernel), hjoined, Text.stripPrefix_append]
  dsimp only [Option.map_some]
  rw [String.ofList_toList]

end Errors

/-- **A result says what was probed and what came of it.** -/
theorem readResult_tcpProbe (attempt : Attempt) (host : String) (port : UInt16)
    (timeoutMs : UInt32) : readResult (tcpProbe attempt host port timeoutMs) =
      some (.probed host port (attempt.finding timeoutMs)) := by
  have hread := readTarget_targetText host port
  unfold tcpProbe tcpProbeInner Attempt.finding
  cases attempt.addrs with
  | error detail => simp [readResult, hread, readError_dnsFailure]
  | ok addrs =>
    cases addrs with
    | nil => simp [readResult, hread, readError_dnsFailure]
    | cons addr _ =>
      dsimp only
      cases attempt.connect addr with
      | elapsed => simp [readResult, hread, readError_timeout]
      | refused => simp [readResult, hread, readError_connectionRefused]
      | failed error => simp [readResult, hread, readError_io]
      | established elapsedUs => simp [readResult, hread]

/-! ## Probing several targets -/

/-- A target of `probe_tcp_targets`. -/
structure ProbeTarget where
  host : String
  port : UInt16
  timeoutMs : UInt32

/-- The target of the command `AddTcpProbe`, whose port is cut to 16 bits. -/
def ProbeTarget.ofCommand (host : String) (port timeoutMs : UInt32) : ProbeTarget :=
  ⟨host, port.toUInt16, timeoutMs⟩

/-- `probe_tcp_targets`: the tasks spawned so far, each with what it has returned or the text of its
panic if it has ended, and `results`. -/
structure Probing where
  handles : List (Option (Except String ProbeResult))
  results : List ProbeResult

/-- The steps of `probe_tcp_targets` and of its tasks. -/
inductive ProbingAct where
  | spawn
  /-- A task returns, after it has met this. -/
  | finish (task : ℕ) (attempt : Attempt)
  | crash (task : ℕ) (error : String)
  /-- The next handle has been awaited. -/
  | join

/-- What is pushed for a task that has ended. -/
def joined : Except String ProbeResult → ProbeResult
  | .ok result => result
  | .error e => ⟨"unknown", false, 0, "task panicked: " ++ e⟩

theorem readResult_panicked (e : String) :
    readResult (joined (.error e)) = some (.panicked e) := by
  have hnone : readTarget "unknown".toList = none := by decide +kernel
  rw [joined, readResult, hnone]
  dsimp only
  rw [String.toList_append, Text.stripPrefix_append, Option.map_some, String.ofList_toList]

namespace Probing

/-- A task ends. -/
def settle (s : Probing) (i : ℕ) (r : Except String ProbeResult) : Option Probing :=
  match s.handles[i]? with
  | some none => some { s with handles := s.handles.set i (some r) }
  | _ => none

/-- One step. -/
def step (targets : List ProbeTarget) (s : Probing) : ProbingAct → Option Probing
  | .spawn =>
    if s.handles.length < targets.length then some { s with handles := s.handles ++ [none] }
    else none
  | .finish i attempt => do
    let target ← targets[i]?
    s.settle i (.ok (tcpProbe attempt target.host target.port target.timeoutMs))
  | .crash i e => s.settle i (.error e)
  | .join =>
    if s.handles.length = targets.length then
      match s.handles[s.results.length]? with
      | some (some r) => some { s with results := s.results ++ [joined r] }
      | _ => none
    else none

variable {targets : List ProbeTarget} {s s' t : Probing} {as : List ProbingAct} {i : ℕ}

theorem settle_iff {r : Except String ProbeResult} :
    s.settle i r = some s' ↔ s.handles[i]? = some none ∧
      { s with handles := s.handles.set i (some r) } = s' := by
  unfold settle
  split
  · rename_i h
    simp [h]
  · rename_i h
    simp only [reduceCtorEq, false_iff]
    exact fun hs => h hs.1

theorem step_finish_iff {attempt : Attempt} :
    step targets s (.finish i attempt) = some s' ↔ ∃ target, targets[i]? = some target ∧
      s.settle i (.ok (tcpProbe attempt target.host target.port target.timeoutMs)) = some s' := by
  simp only [step, Option.bind_eq_bind, Option.bind_eq_some_iff]

theorem step_join_iff :
    step targets s .join = some s' ↔ s.handles.length = targets.length ∧
      ∃ r, s.handles[s.results.length]? = some (some r) ∧
        { s with results := s.results ++ [joined r] } = s' := by
  simp only [step, Option.ite_none_right_eq_some]
  refine and_congr_right fun _ => ?_
  split
  · rename_i r h
    simp [h]
  · rename_i h
    simp only [reduceCtorEq, false_iff]
    rintro ⟨r, hr, -⟩
    exact h r hr

/-- How a step ends a task, if it does. -/
def ends (targets : List ProbeTarget) (i : ℕ) : ProbingAct → Option Report
  | .finish j attempt =>
    if j = i then
      targets[j]?.map fun target =>
        .probed target.host target.port (attempt.finding target.timeoutMs)
    else none
  | .crash j e => if j = i then some (.panicked e) else none
  | .spawn | .join => none

/-- How the steps of a run have ended a task. -/
def endings (targets : List ProbeTarget) (i : ℕ) (as : List ProbingAct) : List Report :=
  as.filterMap (ends targets i)

theorem endings_concat (a : ProbingAct) : endings targets i (as ++ [a]) =
    endings targets i as ++ (ends targets i a).toList := by
  cases h : ends targets i a <;> simp [endings, h]

/-- What holds after the steps `as`: a task that has ended was ended once and what it returned says
how, the others were not ended, and the results are those of the first tasks. -/
structure Tells (targets : List ProbeTarget) (as : List ProbingAct) (s : Probing) : Prop where
  spawned : s.handles.length ≤ targets.length
  going : ∀ i, (∀ r, s.handles[i]? ≠ some (some r)) → endings targets i as = []
  ended : ∀ i r, s.handles[i]? = some (some r) →
    ∃ report, endings targets i as = [report] ∧ readResult (joined r) = some report
  results : ∀ (i : ℕ) (x : ProbeResult), s.results[i]? = some x →
    ∃ r, s.handles[i]? = some (some r) ∧ joined r = x

theorem tells_start (targets : List ProbeTarget) : Tells targets [] ⟨[], []⟩ where
  spawned := Nat.zero_le _
  going _ _ := rfl
  ended _ _ h := absurd h (by simp)
  results _ _ h := absurd h (by simp)

/-- The step that ends a task. -/
theorem Tells.settle {r : Except String ProbeResult} {a : ProbingAct} {report : Report}
    (h : Tells targets as s) (hs : s.settle i r = some s') (hends : ends targets i a = some report)
    (hread : readResult (joined r) = some report) (hother : ∀ j, j ≠ i → ends targets j a = none) :
    Tells targets (as ++ [a]) s' := by
  obtain ⟨hi, rfl⟩ := settle_iff.mp hs
  have hlt : i < s.handles.length := (List.getElem?_eq_some_iff.mp hi).1
  have hkeep : ∀ j, j ≠ i → endings targets j (as ++ [a]) = endings targets j as := fun j hj => by
    rw [endings_concat, hother j hj, Option.toList_none, List.append_nil]
  refine ⟨by simpa using h.spawned, fun j hj => ?_, fun j r' hj => ?_, fun j x hj => ?_⟩
  · have hne : j ≠ i := by
      rintro rfl
      exact hj r (by simp [hlt])
    rw [hkeep j hne]
    exact h.going j fun r' => by simpa [List.getElem?_set_ne hne.symm] using hj r'
  · rcases Machine.getElem?_set_cases hj with ⟨rfl, heq⟩ | ⟨hne, hj⟩
    · obtain rfl := Option.some.inj heq
      have hnone : endings targets i as = [] := h.going i fun r' => by simp [hi]
      exact ⟨report, by rw [endings_concat, hnone, hends]; rfl, hread⟩
    · rw [hkeep j (Ne.symm hne)]
      exact h.ended j r' hj
  · obtain ⟨r', hr', hx⟩ := h.results j x hj
    have hne : i ≠ j := by
      rintro rfl
      exact absurd (hi.symm.trans hr') (by simp)
    exact ⟨r', by simpa [List.getElem?_set_ne hne] using hr', hx⟩

/-- **What a step keeps.** -/
theorem Tells.step {a : ProbingAct} (h : Tells targets as s) (hs : step targets s a = some s') :
    Tells targets (as ++ [a]) s' := by
  cases a with
  | spawn =>
    obtain ⟨hlt, rfl⟩ := by simpa [Probing.step] using hs
    have hkeep : ∀ j, endings targets j (as ++ [.spawn]) = endings targets j as := fun j => by
      simp [endings_concat, ends]
    have hold : ∀ {j : ℕ} {r}, s.handles[j]? = some (some r) →
        (s.handles ++ [none])[j]? = some (some r) := fun hj => by
      rw [List.getElem?_append_left (List.getElem?_eq_some_iff.mp hj).1, hj]
    refine ⟨by simpa [Nat.succ_le_iff] using hlt, fun j hj => ?_, fun j r hj => ?_,
      fun j x hj => ?_⟩
    · rw [hkeep j]
      exact h.going j fun r hr => hj r (hold hr)
    · rw [hkeep j]
      rcases Machine.getElem?_concat_cases hj with hj | ⟨-, heq⟩
      · exact h.ended j r hj
      · exact absurd heq (by simp)
    · obtain ⟨r, hr, hx⟩ := h.results j x hj
      exact ⟨r, hold hr, hx⟩
  | finish i attempt =>
    obtain ⟨target, htarget, hs⟩ := step_finish_iff.mp hs
    exact h.settle hs (by simp [ends, htarget]) (readResult_tcpProbe _ _ _ _)
      fun j hj => if_neg (Ne.symm hj)
  | crash i e =>
    exact h.settle hs (if_pos rfl) (readResult_panicked e) fun j hj => if_neg (Ne.symm hj)
  | join =>
    obtain ⟨-, r, hr, rfl⟩ := step_join_iff.mp hs
    have hkeep : ∀ j, endings targets j (as ++ [.join]) = endings targets j as := fun j => by
      simp [endings_concat, ends]
    refine ⟨h.spawned, fun j hj => ?_, fun j r' hj => ?_, fun j x hj => ?_⟩
    · rw [hkeep j]
      exact h.going j hj
    · rw [hkeep j]
      exact h.ended j r' hj
    · rcases Machine.getElem?_concat_cases hj with hj | ⟨rfl, rfl⟩
      · exact h.results j x hj
      · exact ⟨r, hr, rfl⟩

theorem tells_of_run (hrun : Machine.run (step targets) ⟨[], []⟩ as = some t) :
    Tells targets as t := by
  induction as using List.reverseRecOn generalizing t with
  | nil =>
    obtain rfl := Option.some.inj hrun
    exact tells_start targets
  | append_singleton as a ih =>
    obtain ⟨s, hs, ha⟩ := Machine.run_concat_eq_some.mp hrun
    exact (ih hs).step ha

/-- There are no results of tasks that are not spawned. -/
theorem Tells.length_results_le (h : Tells targets as s) : s.results.length ≤ s.handles.length := by
  by_contra hlt
  obtain ⟨r, hr, -⟩ := h.results s.handles.length _
    (List.getElem?_eq_getElem (Nat.lt_of_not_le hlt))
  exact absurd hr (by simp)

/-- Once all tasks have ended, the results that are missing can be collected. -/
theorem exists_joins (hlength : s.handles.length = targets.length)
    (hended : ∀ i, i < targets.length → ∃ r, s.handles[i]? = some (some r)) {n : ℕ}
    (hn : s.results.length + n = targets.length) :
    ∃ u, Machine.run (step targets) s (List.replicate n .join) = some u ∧
      u.results.length = targets.length := by
  induction n generalizing s with
  | zero => exact ⟨s, rfl, hn⟩
  | succ n ih =>
    obtain ⟨r, hr⟩ := hended s.results.length (by omega)
    obtain ⟨u, hu, hall⟩ := ih (s := { s with results := s.results ++ [joined r] }) hlength hended
      (by simp; omega)
    exact ⟨u, Machine.run_cons_eq_some.mpr ⟨_, step_join_iff.mpr ⟨hlength, r, hr, rfl⟩, hu⟩, hall⟩

/-- **Every target gets its own result.** In whatever order the tasks run, end or panic, each result
says how the task of the target at its place has ended, which it does once. When all tasks have
ended, the results that are missing can be collected. -/
theorem probes_are_reported (hrun : Machine.run (step targets) ⟨[], []⟩ as = some t) :
    (∀ (i : ℕ) (x : ProbeResult), t.results[i]? = some x →
      ∃ report, endings targets i as = [report] ∧ readResult x = some report) ∧
    ((∀ i, i < targets.length → endings targets i as ≠ []) →
      ∃ u, Machine.run (step targets) t
          (List.replicate (targets.length - t.results.length) .join) = some u ∧
        u.results.length = targets.length) := by
  have h := tells_of_run hrun
  have hle := h.length_results_le
  refine ⟨fun i x hx => ?_, fun hall => ?_⟩
  · obtain ⟨r, hr, rfl⟩ := h.results i x hx
    exact h.ended i r hr
  · have hended : ∀ i, i < targets.length → ∃ r, t.handles[i]? = some (some r) := fun i hi => by
      by_contra hnone
      exact hall i hi (h.going i fun r hr => hnone ⟨r, hr⟩)
    have hlength : t.handles.length = targets.length := by
      refine Nat.le_antisymm h.spawned (Nat.le_of_not_lt fun hlt => ?_)
      obtain ⟨r, hr⟩ := hended t.handles.length hlt
      exact absurd hr (by simp)
    exact exists_joins hlength hended (by omega)

/-- Two targets. -/
def twoTargets : List ProbeTarget :=
  [.ofCommand "db-01" 5432 2000, .ofCommand "cache:01" (65536 + 6379) 500]

/-- The second task is refused before the first one succeeds. -/
def secondFirst : List ProbingAct :=
  [.spawn, .spawn, .finish 1 ⟨.ok ["10.0.0.2"], fun _ => .refused⟩,
    .finish 0 ⟨.ok ["10.0.0.1"], fun _ => .established 850⟩, .join, .join]

theorem probes_are_reported_secondFirst :
    ∃ t, Machine.run (step twoTargets) ⟨[], []⟩ secondFirst = some t ∧
      ∀ x, t.results[1]? = some x → readResult x = some (.probed "cache:01" 6379 .refused) := by
  obtain ⟨t, hrun⟩ := Option.isSome_iff_exists.mp (show (Machine.run (step twoTargets) ⟨[], []⟩
    secondFirst).isSome = true by decide +kernel)
  refine ⟨t, hrun, fun x hx => ?_⟩
  obtain ⟨report, hends, hread⟩ := (probes_are_reported hrun).1 1 x hx
  have hreport : endings twoTargets 1 secondFirst = [.probed "cache:01" 6379 .refused] := rfl
  rw [hread, List.cons.inj (hends.symm.trans hreport) |>.1]

end Probing

end Hakuraku.Agent
