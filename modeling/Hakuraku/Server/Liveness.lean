import Hakuraku.Lib.Wrapping
import Hakuraku.Server.Receipts

/-!
# The liveness checker

Reference: `pulse-server/src/main.rs`, the liveness checker; `README.md`, node liveness.

The checker compares the server's clock with an entry's `last_seen_ms`, which is the timestamp of the
agent's clock carried by the last accepted message. So whether a node goes offline depends on the
stamp of that message, and not on when the server has processed it. The two results of this module
say for which messages this makes no difference:

* a run raises no false alarm (`NoFalseAlarm`) exactly if, whenever the checker visits a node that
  has been heard within 30 s, the last message of the node is stamped within 30 s of the tick;
* a tick takes a node that has not been heard for 30 s offline exactly if the last message of the
  node is stamped more than 30 s before the tick, in the wrapping arithmetic of the comparison.
-/

namespace Hakuraku.Server

variable {B J : Type} {cfg : Config B J} {p p' : State J} {s s' : Process J} {a : Act B} {n : String}

namespace Process

/-- The clock of the tick whose scan is going on. -/
def tickTime (s : Process J) : Option Int64 :=
  match s.liveness with
  | .scanning now .. => some now
  | _ => none

/-- A message of the node was processed less than 30 s before `now`. -/
def HeardSince (s : Process J) (n : String) (now : Int64) : Prop :=
  ∃ r ∈ s.receiptsOf n, now.toInt - 30000 < r.receivedAt.toInt

instance (s : Process J) (n : String) (now : Int64) : Decidable (s.HeardSince n now) :=
  inferInstanceAs (Decidable (∃ r ∈ s.receiptsOf n, _))

/-- An entry is overdue if it is online and stamped more than 30 s ago. -/
theorem overdue_iff {now : Int64} {node : NodeInfo J} :
    Registry.overdue now node = true ↔ node.status = .online ∧ 30000 < now - node.lastSeenMs := by
  simp [Registry.overdue]

end Process

/-! ## False alarms -/

/-- A step takes no node offline that was heard less than 30 s before the tick. -/
def NoFalseAlarm (cfg : Config B J) (p : State J) (a : Act B) : Prop :=
  ∀ p', step cfg p a = some p' → ∀ n, p.1.statusOf n = some .online →
    p'.1.statusOf n = some .offline → ∃ now, p.1.tickTime = some now ∧ ¬ p.1.HeardSince n now

/-- When the checker visits a node that is online and was heard less than 30 s before the tick, the
message of the node accepted last carries a timestamp at most 30 s before the tick. -/
def StampsCurrent (p : State J) : Act B → Prop
  | .visit n => ∀ now ∈ p.1.tickTime, p.1.statusOf n = some .online → p.1.HeardSince n now →
    ∀ r ∈ p.1.lastReceipt n, now - r.timestampMs ≤ 30000
  | _ => True

instance (p : State J) : DecidablePred (StampsCurrent (B := B) p)
  | .visit n => show Decidable (∀ now ∈ p.1.tickTime, _ → _ → ∀ r ∈ p.1.lastReceipt n, _) from
    Option.decidableForallMem _
  | .wait _ | .openStream _ | .receive .. | .enqueue _ | .broadcast _ | .ack .. | .workerRecv _
  | .workerUpsert .. | .workerInsert .. | .tick | .scanned | .persist _ | .announce => isTrue trivial

/-- Only a visit of its entry takes a node offline. -/
theorem Effect.eq_visit_of_offline (he : Effect s s' a) (hon : s.statusOf n = some .online)
    (hoff : s'.statusOf n = some .offline) : a = .visit n := by
  have hsame : s'.statusOf n ≠ s.statusOf n := by
    rw [hon, hoff]
    decide
  cases he with
  | other hnodes => exact absurd (Process.statusOf_congr hnodes) hsame
  | stats i stats nodeId timestampMs statsStr statsJson hid hstamp hstream hnodes =>
    by_cases hne : n = nodeId
    · subst hne
      rw [Process.statusOf, hnodes, Registry.lookup_onStats_self] at hoff
      exact absurd hoff (by simp)
    · rw [Process.statusOf, Process.statusOf, hnodes, Registry.lookup_onStats_of_ne hne] at hsame
      exact absurd rfl hsame
  | heartbeat i hb nodeId timestampMs hid hstamp hstream hnodes =>
    by_cases hne : n = nodeId
    · subst hne
      rw [Process.statusOf, hnodes, Registry.lookup_onHeartbeat_self] at hoff
      cases hnode : s.nodes.lookup n <;> simp [hnode] at hoff
    · rw [Process.statusOf, Process.statusOf, hnodes, Registry.lookup_onHeartbeat_of_ne hne] at hsame
      exact absurd rfl hsame
  | tick hidle heq => exact absurd (Process.statusOf_congr (heq ▸ rfl)) hsame
  | visit m now due visited transitions node hscan hnode hnew heq =>
    by_cases hne : n = m
    · rw [hne]
    · rw [heq, Process.statusOf, Process.statusOf, Registry.lookup_onVisit_of_ne hne] at hsame
      exact absurd rfl hsame
  | scanned now due visited transitions hscan hall heq =>
    exact absurd (Process.statusOf_congr (heq ▸ rfl)) hsame
  | persist ok nowMs transition rest hupsert hnodes =>
    exact absurd (Process.statusOf_congr hnodes) hsame
  | announce transition rest hann hnodes => exact absurd (Process.statusOf_congr hnodes) hsame

/-- A visit takes an overdue node offline and leaves any other as it is. -/
theorem Process.statusOf_onVisit {now : Int64} {node : NodeInfo J}
    (hnode : s.nodes.lookup n = some node) (hnodes : s'.nodes = s.nodes.onVisit now n) :
    s'.statusOf n = some (if Registry.overdue now node then .offline else node.status) := by
  rw [statusOf, hnodes, Registry.lookup_onVisit_self, hnode]
  split <;> simp_all

/-- A node that was heard has a last message. -/
theorem Process.HeardSince.exists_lastReceipt {now : Int64} (h : s.HeardSince n now) :
    ∃ r, s.lastReceipt n = some r := by
  obtain ⟨r, hr, -⟩ := h
  exact ⟨_, List.getLast?_eq_some_getLast (List.ne_nil_of_mem hr)⟩

/-- A step raises no false alarm exactly if the stamps are current where it visits. -/
theorem noFalseAlarm_iff_stampsCurrent (hsound : p.1.RegistrySound) (h : step cfg p a = some p') :
    NoFalseAlarm cfg p a ↔ StampsCurrent p a := by
  have he := step_effect h
  by_cases ha : ∃ n, a = .visit n
  · obtain ⟨n, rfl⟩ := ha
    obtain ⟨s, db⟩ := p
    obtain ⟨now, due, visited, transitions, node, hscan, hnode, hnew, rfl⟩ := step_visit_iff.mp h
    have htick : s.tickTime = some now := by rw [Process.tickTime, hscan]
    have hstatus : s.statusOf n = some node.status := by rw [Process.statusOf, hnode, Option.map_some]
    -- the last message decides whether the entry is overdue
    have hdue : ∀ r, s.lastReceipt n = some r → node.status = .online →
        (Registry.overdue now node = true ↔ ¬ now - r.timestampMs ≤ 30000) := by
      intro r hr hon
      rw [Process.overdue_iff, hsound.lastSeen n node r hnode hr, and_iff_right hon, Int64.not_le]
    constructor
    · intro hno now' hnow' hon hheard r hr
      rw [htick, Option.mem_some] at hnow'
      subst hnow'
      rw [hstatus, Option.some.injEq] at hon
      by_contra hlate
      have hoverdue := (hdue r hr hon).mpr hlate
      obtain ⟨now', hnow', hnot⟩ := hno _ h n (by rw [hstatus, hon])
        (by rw [Process.statusOf_onVisit hnode rfl, if_pos hoverdue])
      rw [htick, Option.some.injEq] at hnow'
      exact hnot (hnow' ▸ hheard)
    · intro hcur p'' hp'' m hon hoff
      obtain ⟨rfl⟩ := (step_effect hp'').eq_visit_of_offline hon hoff
      rw [h, Option.some.injEq] at hp''
      subst hp''
      refine ⟨now, htick, fun hheard => ?_⟩
      obtain ⟨r, hr⟩ := hheard.exists_lastReceipt
      have hle := hcur now htick hon hheard r hr
      rw [hstatus, Option.some.injEq] at hon
      rw [Process.statusOf_onVisit hnode rfl,
        if_neg fun hd => (hdue r hr hon).mp hd hle, hon] at hoff
      exact absurd hoff (by decide)
  · refine iff_of_true (fun p'' hp'' n hon hoff => ?_) ?_
    · exact absurd ⟨n, (step_effect hp'').eq_visit_of_offline hon hoff⟩ ha
    · cases a with
      | visit n => exact absurd ⟨n, rfl⟩ ha
      | _ => trivial

/-- **A run raises no false alarm exactly if its stamps are current throughout.** -/
theorem noFalseAlarms_iff {db : Database J} {clock : Int64} {as : List (Act B)} {t : State J}
    (hrun : Machine.run (step cfg) (Process.boot db clock, db) as = some t) :
    Machine.Along (step cfg) (NoFalseAlarm cfg) (Process.boot db clock, db) as ↔
      Machine.Along (step cfg) StampsCurrent (Process.boot db clock, db) as :=
  Machine.along_congr (I := fun p => p.1.RegistrySound)
    (fun _ _ _ hI hs => hI.of_effect (step_effect hs))
    (fun _ _ _ hI hs => noFalseAlarm_iff_stampsCurrent hI hs)
    (Process.registrySound_boot db clock) hrun

/-- A node with a true clock sends a snapshot, and a tick visits the node a second later. -/
def trueClockRun : List (Act ℕ) :=
  [.wait 100000, .openStream "node-01",
    .receive 0 (.message (some (.stats ⟨"node-01", 99000, 7⟩))), .wait 101000, .tick,
    .visit "node-01"]

theorem noFalseAlarms_trueClockRun :
    (Machine.run (step .byText) (Process.boot .empty 0, .empty) trueClockRun).isSome = true ∧
      Machine.Along (step .byText) (NoFalseAlarm .byText) (Process.boot .empty 0, .empty)
        trueClockRun :=
  ⟨by decide, (noFalseAlarms_iff (Option.some_get (by decide)).symm).mpr (by decide)⟩

/-- A node whose clock is 45 s behind sends a snapshot, and a tick visits the node at once. -/
def slowClockRun : List (Act ℕ) :=
  [.wait 100000, .openStream "node-01",
    .receive 0 (.message (some (.stats ⟨"node-01", 55000, 7⟩))), .tick]

theorem slowClock_falseAlarm :
    (∃ t, Machine.run (step .byText) (Process.boot .empty 0, .empty)
        (slowClockRun ++ [.visit "node-01"]) = some t ∧
      ∀ r ∈ t.1.receipts, |r.timestampMs.toInt - r.receivedAt.toInt| ≤ 60000) ∧
    ¬ Machine.Along (step .byText) (NoFalseAlarm .byText) (Process.boot .empty 0, .empty)
      (slowClockRun ++ [.visit "node-01"]) := by
  refine ⟨⟨_, (Option.some_get (by decide)).symm, by decide⟩, fun hall => ?_⟩
  have hrun := (Option.some_get (x := Machine.run (step .byText) (Process.boot .empty 0, .empty)
    slowClockRun) (by decide)).symm
  have hvisit := ((Machine.along_append hrun).mp hall).2.1
  obtain ⟨now, hnow, hnot⟩ := hvisit _ (Option.some_get (by decide)).symm "node-01" (by decide)
    (by decide)
  obtain rfl : (100000 : Int64) = now := Option.some.inj hnow
  exact absurd (by decide) hnot

/-! ## Missed alarms -/

/-- A scan is going on that has the node on its list, and the entry of the node, stamped
`timestampMs`, is as the scan found it or left it. -/
def Process.Scanning (s : Process J) (n : String) (now timestampMs : Int64) : Prop :=
  ∃ due visited transitions node, s.liveness = .scanning now due visited transitions ∧ n ∈ due ∧
    s.nodes.lookup n = some node ∧ node.lastSeenMs = timestampMs ∧
    node.status = if n ∈ visited ∧ 30000 < now - timestampMs then .offline else .online

/-- The node was heard since the clock stood at `now`. -/
def Process.HeardAgain (s : Process J) (n : String) (now : Int64) : Prop :=
  ∃ r, s.lastReceipt n = some r ∧ now ≤ r.receivedAt

theorem Process.HeardAgain.congr {now : Int64} (h : s.HeardAgain n now)
    (hreceipts : s'.receipts = s.receipts) : s'.HeardAgain n now := by
  obtain ⟨r, hr, hle⟩ := h
  exact ⟨r, (lastReceipt_congr hreceipts).trans hr, hle⟩

/-- Accepting a message keeps or makes it so. -/
theorem Process.heardAgain_append {now : Int64} {r : Receipt J}
    (hreceipts : s'.receipts = s.receipts ++ [r]) (hnow : now ≤ r.receivedAt)
    (h : r.nodeId = n ∨ s.HeardAgain n now) : s'.HeardAgain n now := by
  by_cases hid : r.nodeId = n
  · exact ⟨r, by rw [lastReceipt_append hreceipts, if_pos hid], hnow⟩
  · obtain ⟨r', hr', hle⟩ := h.resolve_left hid
    exact ⟨r', by rw [lastReceipt_append hreceipts, if_neg hid, hr'], hle⟩

theorem Process.Scanning.congr {now timestampMs : Int64} (h : s.Scanning n now timestampMs)
    (hnode : s'.nodes.lookup n = s.nodes.lookup n) (hlive : s'.liveness = s.liveness) :
    s'.Scanning n now timestampMs := by
  rw [Scanning, hnode, hlive]
  exact h

/-- Until the scan is done, the node is heard again or the scan treats its entry as it stands. -/
theorem Effect.scanning_or_heardAgain {now timestampMs : Int64} (he : Effect s s' a)
    (ha : a ≠ .scanned) (hclock : now ≤ s.clock)
    (h : s.HeardAgain n now ∨ s.Scanning n now timestampMs) :
    s'.HeardAgain n now ∨ s'.Scanning n now timestampMs := by
  cases he with
  | other hnodes hreceipts hlive =>
    exact h.imp (·.congr hreceipts) (·.congr (hnodes ▸ rfl) hlive)
  | stats i stats nodeId timestampMs' statsStr statsJson hid hstamp hstream hnodes hreceipts hlive =>
    by_cases hne : nodeId = n
    · exact .inl (Process.heardAgain_append hreceipts hclock (.inl hne))
    · refine h.imp (fun hheard => Process.heardAgain_append hreceipts hclock (.inr hheard))
        (·.congr ?_ hlive)
      rw [hnodes, Registry.lookup_onStats_of_ne (Ne.symm hne)]
  | heartbeat i hb nodeId timestampMs' hid hstamp hstream hnodes hreceipts hlive =>
    by_cases hne : nodeId = n
    · exact .inl (Process.heardAgain_append hreceipts hclock (.inl hne))
    · refine h.imp (fun hheard => Process.heardAgain_append hreceipts hclock (.inr hheard))
        (·.congr ?_ hlive)
      rw [hnodes, Registry.lookup_onHeartbeat_of_ne (Ne.symm hne)]
  | tick hidle heq =>
    subst heq
    refine h.imp id ?_
    rintro ⟨due, visited, transitions, node, hscan, -⟩
    rw [hidle] at hscan
    exact absurd hscan (by simp)
  | visit m now' due visited transitions node hscan hnode hnew heq =>
    subst heq
    refine h.imp id ?_
    rintro ⟨due', visited', transitions', node', hscan', hdue, hnode', hseen, hstatus⟩
    rw [hscan, Liveness.scanning.injEq] at hscan'
    obtain ⟨rfl, rfl, rfl, rfl⟩ := hscan'
    by_cases hne : n = m
    · subst hne
      rw [if_neg fun hv => hnew hv.1] at hstatus
      refine ⟨due, n :: visited, _, _, rfl, hdue,
        by rw [Registry.lookup_onVisit_self, hnode', Option.map_some], ?_, ?_⟩
      · split
        · exact hseen
        · exact hseen
      · have hiff : Registry.overdue now' node' = true ↔ 30000 < now' - timestampMs := by
          rw [Process.overdue_iff, hseen, and_iff_right hstatus]
        by_cases hlate : 30000 < now' - timestampMs
        · rw [if_pos (hiff.mpr hlate), if_pos ⟨List.mem_cons_self, hlate⟩]
        · rw [if_neg fun hd => hlate (hiff.mp hd), if_neg fun hv => hlate hv.2, hstatus]
    · refine ⟨due, m :: visited, _, node', rfl, hdue,
        by rw [Registry.lookup_onVisit_of_ne hne, hnode'], hseen, ?_⟩
      rw [hstatus]
      simp only [List.mem_cons, hne, false_or]
  | scanned => exact absurd rfl ha
  | persist ok nowMs transition rest hupsert hnodes hreceipts =>
    refine h.imp (·.congr hreceipts) ?_
    rintro ⟨due, visited, transitions, node, hscan, -⟩
    rw [hupsert] at hscan
    exact absurd hscan (by simp)
  | announce transition rest hann hnodes hreceipts =>
    refine h.imp (·.congr hreceipts) ?_
    rintro ⟨due, visited, transitions, node, hscan, -⟩
    rw [hann] at hscan
    exact absurd hscan (by simp)

theorem Effect.clock_le (he : Effect s s' a) : s.clock ≤ s'.clock := by
  cases he with
  | other hnodes hreceipts hlive hclock => exact hclock
  | stats i stats nodeId timestampMs statsStr statsJson hid hstamp hstream hnodes hreceipts hlive
    hclock =>
    exact hclock ▸ Int64.le_refl _
  | heartbeat i hb nodeId timestampMs hid hstamp hstream hnodes hreceipts hlive hclock =>
    exact hclock ▸ Int64.le_refl _
  | tick hidle heq => exact heq ▸ Int64.le_refl _
  | visit m now due visited transitions node hscan hnode hnew heq => exact heq ▸ Int64.le_refl _
  | scanned now due visited transitions hscan hall heq => exact heq ▸ Int64.le_refl _
  | persist ok nowMs transition rest hupsert hnodes hreceipts hlive hclock =>
    exact hclock ▸ Int64.le_refl _
  | announce transition rest hann hnodes hreceipts hlive hclock => exact hclock ▸ Int64.le_refl _

/-- A run that does not finish the scan keeps the alternative. -/
theorem run_scanning_or_heardAgain {now timestampMs : Int64} {as : List (Act B)} {q t : State J}
    (hrun : Machine.run (step cfg) q as = some t) (hone : .scanned ∉ as) (hclock : now ≤ q.1.clock)
    (h : q.1.HeardAgain n now ∨ q.1.Scanning n now timestampMs) :
    t.1.HeardAgain n now ∨ t.1.Scanning n now timestampMs := by
  induction as generalizing q with
  | nil =>
    rw [Machine.run_nil, Option.some.injEq] at hrun
    exact hrun ▸ h
  | cons a as ih =>
    obtain ⟨q', hq', hrun'⟩ := Machine.run_cons_eq_some.mp hrun
    rw [List.mem_cons, not_or] at hone
    have he := step_effect hq'
    exact ih hrun' hone.2 (Int64.le_trans hclock he.clock_le)
      (he.scanning_or_heardAgain (Ne.symm hone.1) hclock h)

/-- A tick begins a scan that has every online node on its list. -/
theorem scanning_of_tick {q q' : State J} {node : NodeInfo J} (h : step cfg q .tick = some q')
    (hnode : q.1.nodes.lookup n = some node) (hon : node.status = .online) :
    q'.1.Scanning n q.1.clock node.lastSeenMs := by
  obtain ⟨s, db⟩ := q
  obtain ⟨-, rfl⟩ := step_tick_iff.mp h
  refine ⟨s.nodes.keys, [], [], node, rfl, ?_, hnode, rfl, by simp [hon]⟩
  exact AList.mem_keys.mp (AList.lookup_isSome.mp (by rw [hnode]; rfl))

/-- At the end of the scan the node is offline if its stamp is old. -/
theorem statusOf_of_scanned {q t : State J} {now timestampMs : Int64}
    (h : step cfg q .scanned = some t) (hscan : q.1.Scanning n now timestampMs) :
    t.1.statusOf n = some (if 30000 < now - timestampMs then .offline else .online) := by
  obtain ⟨s, db⟩ := q
  obtain ⟨now', due, visited, transitions, hs, hall, rfl⟩ := step_scanned_iff.mp h
  obtain ⟨due', visited', transitions', node, hs', hdue, hnode, -, hstatus⟩ := hscan
  rw [hs, Liveness.scanning.injEq] at hs'
  obtain ⟨rfl, rfl, rfl, rfl⟩ := hs'
  simp only [Process.statusOf, hnode, Option.map_some, hstatus, hall n hdue, true_and]

/-- **A tick takes a node that has not been heard for 30 s offline exactly if its last message is
stamped more than 30 s before the tick.** -/
theorem offline_after_tick_iff {db : Database J} {clock : Int64} {as₁ as₂ : List (Act B)}
    {q t : State J} {r : Receipt J}
    (hstart : Machine.run (step cfg) (Process.boot db clock, db) as₁ = some q)
    (htick : Machine.run (step cfg) q (.tick :: as₂ ++ [.scanned]) = some t)
    (hone : .scanned ∉ as₂) (hon : q.1.statusOf n = some .online)
    (hlast : t.1.lastReceipt n = some r) (hold : r.receivedAt.toInt < q.1.clock.toInt - 30000) :
    t.1.statusOf n = some .offline ↔ 30000 < q.1.clock - r.timestampMs := by
  obtain ⟨u, hu, hlaststep⟩ := Machine.run_concat_eq_some.mp htick
  obtain ⟨q', hq', hrun⟩ := Machine.run_cons_eq_some.mp hu
  obtain ⟨node, hnode, hstatus⟩ := Option.map_eq_some_iff.mp hon
  have hclock : q.1.clock ≤ q'.1.clock := (step_effect hq').clock_le
  have hscan := run_scanning_or_heardAgain hrun hone hclock (.inr (scanning_of_tick hq' hnode hstatus))
  -- the message accepted last is too old to have come during the tick
  have hlast' : u.1.lastReceipt n = some r := by
    obtain ⟨s, db⟩ := u
    obtain ⟨now, due, visited, transitions, -, -, rfl⟩ := step_scanned_iff.mp hlaststep
    exact hlast
  have hnot : ¬ u.1.HeardAgain n q.1.clock := by
    rintro ⟨r', hr', hle⟩
    rw [hlast', Option.some.injEq] at hr'
    subst hr'
    rw [Int64.le_iff_toInt_le] at hle
    omega
  have hscan := hscan.resolve_left hnot
  have hsound : u.1.RegistrySound :=
    Machine.run_invariant (I := fun p => p.1.RegistrySound)
      (fun _ _ _ hI hs => hI.of_effect (step_effect hs)) (Process.registrySound_boot db clock)
      (Machine.run_append_eq_some.mpr ⟨q, hstart, hu⟩)
  have hstamp : node.lastSeenMs = r.timestampMs := by
    obtain ⟨-, -, -, node', -, -, hnode', hseen, -⟩ := hscan
    exact hseen.symm.trans (hsound.lastSeen n node' r hnode' hlast')
  rw [statusOf_of_scanned hlaststep hscan, hstamp, Option.some.injEq]
  split <;> simp_all

/-- A node sends one snapshot with the given stamp and is not heard again for 50 s. -/
def silentRun (timestampMs : Int64) : List (Act ℕ) :=
  [.wait 100000, .openStream "node-01",
    .receive 0 (.message (some (.stats ⟨"node-01", timestampMs, 7⟩))), .wait 150000]

theorem offline_after_silentRun :
    ∃ q t, Machine.run (step .byText) (Process.boot .empty 0, .empty) (silentRun 99000) = some q ∧
      Machine.run (step .byText) q (.tick :: [.visit "node-01"] ++ [.scanned]) = some t ∧
      t.1.statusOf "node-01" = some .offline := by
  refine ⟨_, _, (Option.some_get (by decide)).symm, (Option.some_get (by decide)).symm, ?_⟩
  refine (offline_after_tick_iff (Option.some_get (by decide)).symm (Option.some_get (by decide)).symm
    (by simp) (by decide) (Option.some_get (by decide)).symm (by decide)).mpr (by decide)

theorem online_after_silentRun_stamped_ahead :
    ∃ q t r, Machine.run (step .byText) (Process.boot .empty 0, .empty) (silentRun 200000) = some q ∧
      Machine.run (step .byText) q [.tick, .visit "node-01", .scanned] = some t ∧
      q.1.statusOf "node-01" = some .online ∧ t.1.lastReceipt "node-01" = some r ∧
      r.receivedAt.toInt < q.1.clock.toInt - 30000 ∧ t.1.statusOf "node-01" ≠ some .offline :=
  ⟨_, _, _, (Option.some_get (by decide)).symm, (Option.some_get (by decide)).symm, by decide,
    (Option.some_get (by decide)).symm, by decide, by decide⟩

end Hakuraku.Server
