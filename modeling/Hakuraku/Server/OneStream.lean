import Hakuraku.Server.Broadcast
import Hakuraku.Server.Isolation

/-!
# One stream for each node

Reference: `pulse-server/src/grpc.rs`, `stream_telemetry`.

A stream broadcasts the update of a `Stats` before it receives the next message. So when a node has one
stream open at a time, at most one update of the node is left to send, and it carries what the registry
holds for the node.
-/

namespace Hakuraku.Server

variable {B J : Type} {cfg : Config B J} {s s' : Process J} {p p' : State J} {a : Act B}

/-- A stream of a node is opened only when those it had are closed. -/
def OneStream (s : Process J) : Act B → Prop
  | .openStream n => ∀ x ∈ s.streams, x.nodeId = n → x.phase = .closed
  | _ => True

instance [DecidableEq J] (s : Process J) : ∀ a : Act B, Decidable (OneStream s a)
  | .openStream _ => List.decidableBAll _ _
  | .wait _ | .receive _ _ | .enqueue _ | .broadcast _ | .ack _ _ | .workerRecv _ | .workerUpsert _ _
  | .workerInsert _ _ | .tick | .visit _ | .scanned | .persist _ | .announce => isTrue trivial

/-- A `Stats` is accepted only when no update of its node is left to send. -/
def AirsFirst (cfg : Config B J) (s : Process J) (a : Act B) : Prop :=
  ∀ item ∈ accepts? cfg s a, ∀ update ∈ s.unaired, update.nodeId ≠ item.nodeId

namespace Process

/-- No two open streams are of one node. -/
def OneOpen (s : Process J) : Prop :=
  ∀ (i j : ℕ) (x y : Stream J), s.streams[i]? = some x → s.streams[j]? = some y →
    x.nodeId = y.nodeId → x.phase ≠ .closed → y.phase ≠ .closed → i = j

/-- What is left to send is what the registry holds. -/
def Current (s : Process J) : Prop :=
  ∀ update ∈ s.unaired, s.nodes.latest update.nodeId = some (some update.stats)

end Process

/-- A `Stats` is accepted by a stream of its node. -/
theorem stream_of_accepts {item : StatsItem J} (h : accepts? cfg s a = some item) :
    ∃ (i : ℕ) (x : Stream J), s.streams[i]? = some x ∧ x.phase = .receiving ∧
      item.nodeId = x.nodeId := by
  unfold accepts? at h
  split at h
  · rename_i i stats
    obtain ⟨x, hx, h⟩ := Option.bind_eq_some_iff.mp h
    split at h
    · rename_i hphase
      split at h
      · obtain ⟨statsJson, -, rfl⟩ := Option.map_eq_some_iff.mp h
        exact ⟨i, x, hx, hphase, rfl⟩
      · exact absurd h (by simp)
    · exact absurd h (by simp)
  · exact absurd h (by simp)

/-- Only an open stream takes a step. -/
theorem step_stream_open {i : ℕ} {x : Stream J} (h : step cfg p a = some p')
    (ha : a.stream? = some i) (hx : p.1.streams[i]? = some x) : x.phase ≠ .closed := by
  obtain ⟨s, db⟩ := p
  cases a with
  | receive j inbound =>
    obtain rfl := Option.some.inj ha
    obtain ⟨y, hy, hphase, -⟩ := step_receive_iff.mp h
    obtain rfl := Option.some.inj (hx.symm.trans hy)
    simp [hphase]
  | enqueue j =>
    obtain rfl := Option.some.inj ha
    obtain ⟨y, hy, item, hphase, -⟩ := step_enqueue_iff.mp h
    obtain rfl := Option.some.inj (hx.symm.trans hy)
    simp [hphase]
  | broadcast j =>
    obtain rfl := Option.some.inj ha
    obtain ⟨y, hy, update, hphase, -⟩ := step_broadcast_iff.mp h
    obtain rfl := Option.some.inj (hx.symm.trans hy)
    simp [hphase]
  | ack j ok =>
    obtain rfl := Option.some.inj ha
    obtain ⟨y, hy, nowMs, hphase, -⟩ := step_ack_iff.mp h
    obtain rfl := Option.some.inj (hx.symm.trans hy)
    simp [hphase]
  | _ => exact absurd ha (by simp [Act.stream?])

namespace Process

theorem oneOpen_boot (db : Database J) (clock : Int64) : (boot db clock).OneOpen :=
  fun i j x y hx => absurd hx (by simp [boot])

theorem OneOpen.step (h : p.1.OneOpen) (hone : OneStream p.1 a) (hs : step cfg p a = some p') :
    p'.1.OneOpen := by
  intro i j xi xj hi hj hid hopeni hopenj
  cases hstream : a.stream? with
  | some k =>
    obtain ⟨x, y, hdoes, -⟩ := step_doesOnly hs hstream
    have hopen := step_stream_open hs hstream hdoes.stream
    obtain ⟨q, receipts, -, rfl⟩ := hdoes.process
    rcases Machine.getElem?_set_cases hi with ⟨rfl, rfl⟩ | ⟨-, holdi⟩ <;>
      rcases Machine.getElem?_set_cases hj with ⟨rfl, rfl⟩ | ⟨-, holdj⟩
    · rfl
    · exact h _ _ x xj hdoes.stream holdj (hdoes.nodeId ▸ hid) hopen hopenj
    · exact h _ _ xi x holdi hdoes.stream (hdoes.nodeId ▸ hid) hopeni hopen
    · exact h i j xi xj holdi holdj hid hopeni hopenj
  | none =>
    rcases step_streams hs hstream with heq | ⟨m, rfl, heq⟩
    · rw [heq] at hi hj
      exact h i j xi xj hi hj hid hopeni hopenj
    · -- the new stream is the only open one of its node
      have hcases : ∀ k z, (p.1.streams ++ [⟨m, .receiving, []⟩])[k]? = some z →
          p.1.streams[k]? = some z ∨ k = p.1.streams.length ∧ z = ⟨m, .receiving, []⟩ := by
        intro k z hz
        rw [List.getElem?_append] at hz
        split at hz
        · exact .inl hz
        · rename_i hk
          have hzero := (List.getElem?_eq_some_iff.mp hz).1
          rw [List.length_singleton] at hzero
          exact .inr ⟨by omega, List.mem_singleton.mp (List.mem_of_getElem? hz)⟩
      rcases hcases i xi (heq ▸ hi) with hi | ⟨rfl, rfl⟩ <;>
        rcases hcases j xj (heq ▸ hj) with hj | ⟨rfl, rfl⟩
      · exact h i j xi xj hi hj hid hopeni hopenj
      · exact absurd (hone xi (List.mem_of_getElem? hi) hid) hopeni
      · exact absurd (hone xj (List.mem_of_getElem? hj) hid.symm) hopenj
      · rfl

theorem current_boot (db : Database J) (clock : Int64) : (boot db clock).Current :=
  fun update hu => absurd hu (by simp [unaired, boot])

/-- The registry holds what is left to send, where no other update of the node was left. -/
theorem Current.airs (h : s.Current) (hfirst : AirsFirst cfg s a) (ha : Airs cfg s s' a) :
    s'.Current := by
  intro update hu
  cases ha with
  | quiet hnodes _ hunaired => exact hnodes ▸ h update (hunaired ▸ hu)
  | stats i stats item haccepts hnodes hreceipts hunaired =>
    rw [hnodes]
    rcases Multiset.mem_add.mp (hunaired ▸ hu) with hold | hnew
    · rw [Registry.latest_onStats_of_ne (hfirst item haccepts update hold)]
      exact h update hold
    · rw [Multiset.mem_singleton.mp hnew]
      exact Registry.latest_onStats_self
  | heartbeat i hb hnodes hreceipts hunaired =>
    rw [hnodes, Registry.latest_onHeartbeat]
    exact h update (hunaired ▸ hu)
  | visit n now node hnode hnodes hreceipts hunaired =>
    rw [hnodes, Registry.latest_onVisit]
    exact h update (hunaired ▸ hu)
  | broadcast i sent hnodes hreceipts hunaired =>
    rw [hnodes]
    exact h update (hunaired ▸ Multiset.mem_add.mpr (.inl hu))
  | announce transition rest hlive hnodes hreceipts hunaired => exact hnodes ▸ h update (hunaired ▸ hu)

end Process

/-- What a stream has left to send is of its node. -/
theorem Stream.Faithful.unaired {x : Stream J} {update : NodeUpdate J} (h : x.Faithful)
    (hu : update ∈ x.unaired) :
    update.nodeId = x.nodeId ∧ x.phase ≠ .closed ∧ x.phase ≠ .receiving := by
  cases hphase : x.phase with
  | registered item =>
    simp only [Stream.unaired, hphase, Multiset.mem_singleton] at hu
    simp [hu]
  | queued sent =>
    simp only [Stream.unaired, hphase, Multiset.mem_singleton] at hu
    have hnode : (Emission.broadcast sent).Concerns x.nodeId := h _ (by simp [Stream.owed, hphase])
    exact ⟨hu ▸ hnode, by simp, by simp⟩
  | receiving | acking | closed => simp [Stream.unaired, hphase] at hu

/-- **With one stream for each node, a `Stats` is accepted only when the one before has been sent.** -/
theorem Process.OneOpen.airsFirst (h : s.OneOpen) (hfaithful : s.FaithfulStreams) :
    AirsFirst cfg s a := by
  intro item hitem update hu hn
  obtain ⟨i, x, hx, hphase, hid⟩ := stream_of_accepts hitem
  obtain ⟨y, hy, huy⟩ := Sums.mem_sum_map.mp hu
  obtain ⟨hnode, hopen, hbusy⟩ := (hfaithful y hy).unaired huy
  obtain ⟨j, hj⟩ := List.getElem?_of_mem hy
  obtain rfl : i = j := h i j x y hx hj (by rw [← hid, ← hn, hnode]) (by simp [hphase]) hopen
  obtain rfl := Option.some.inj (hj.symm.trans hx)
  exact hbusy hphase

end Hakuraku.Server
