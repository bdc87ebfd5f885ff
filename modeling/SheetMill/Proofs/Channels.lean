import SheetMill.Proofs.Loops

/-!
# The channels of the client

Before each attempt but the first, the client closes its channel and opens a new one. Whether or not
closing fails, the old channel counts as closed; so in every run of a client all channels but the
current one have been closed, and the current one has not.
-/

namespace SheetMill

open Act Retry List

variable {α : Type} {n : Nat} {wait : Nat → Value} {s s' : Remote}

namespace Client

/-- No planned failure of closing a channel is a request to stop. -/
def Closable (s : Remote) : Prop := ∀ f ∈ s.outages.map (·.effect), f.isOrdinary = true

/-- There is a channel, all channels before it have been closed once, and it has not. -/
structure Tidy (s : Remote) : Prop where
  opened : 1 ≤ s.addresses.length
  closed : s.closings = range s.current

/-- What is seen of the channels: which were opened and closed, and how closing fails. -/
def channels (s : Remote) : List String × List Nat × List (Outage Fault) :=
  (s.addresses, s.closings, s.outages)

theorem Closable.of_channels (h : channels s' = channels s) (hs : Closable s) : Closable s' := by
  have houtages : s'.outages = s.outages := congrArg (·.2.2) h
  unfold Closable
  rw [houtages]
  exact hs

theorem Tidy.of_same (hs : Tidy s) (haddrs : s'.addresses = s.addresses)
    (hclosings : s'.closings = s.closings) : Tidy s' := by
  refine ⟨?_, ?_⟩
  · rw [haddrs]
    exact hs.opened
  · rw [hclosings, Remote.current, haddrs]
    exact hs.closed

theorem tidy_of_channels (h : channels s' = channels s) (hs : Tidy s ∧ Closable s) :
    Tidy s' ∧ Closable s' :=
  ⟨hs.1.of_same (congrArg (·.1) h) (congrArg (·.2.1) h), hs.2.of_channels h⟩

/-- The state with one more channel, opened after the current one was closed. -/
structure Reopened (client : Client) (s s' : Remote) : Prop where
  addresses : s'.addresses = s.addresses ++ [client.address]
  closings : s'.closings = s.closings ++ [s.current]
  closable : Closable s'

theorem Reopened.tidy {client : Client} (h : Reopened client s s') (hs : Tidy s) : Tidy s' := by
  have hcur : s'.current = s.current + 1 := by
    have hopened := hs.opened
    unfold Remote.current
    rw [h.addresses, length_append, length_singleton]
    omega
  refine ⟨?_, ?_⟩
  · rw [h.addresses]
    simp
  · rw [h.closings, hs.closed, hcur, range_succ]

/-- Whether or not closing the channel fails, it counts as closed and a new one is opened. -/
theorem reconnect_run (client : Client) (hs : Closable s) :
    ∃ s', client.reconnect s = .ok () s' ∧ Reopened client s s' := by
  have hclosed : ∃ s1, close.handle (fun _ => pure ()) s = .ok () s1 ∧
      s1.addresses = s.addresses ∧ s1.closings = s.closings ++ [s.current] ∧ Closable s1 := by
    let s1 : Remote := { s with
      closings := s.closings ++ [s.current]
      outages := (Outage.strike "channel" "close" s.outages).2 }
    have hs1 : Closable s1 := by
      intro f hf
      rw [Outage.strike_effects] at hf
      exact hs f hf
    refine ⟨s1, ?_, rfl, rfl, hs1⟩
    cases heffect : (Outage.strike "channel" "close" s.outages).1 with
    | none =>
      have hrun : close s = .ok () s1 := by
        unfold close Remote.disconnect
        rw [bind_of_ok (get_run s), bind_of_ok (get_run s)]
        simp only [heffect]
        rfl
      exact handle_of_ok hrun
    | some f =>
      have hrun : close s = .error f s1 := by
        unfold close Remote.disconnect
        rw [bind_of_ok (get_run s), bind_of_ok (get_run s)]
        simp only [heffect]
        rfl
      exact handle_of_error hrun (hs f (Outage.strike_mem heffect))
  obtain ⟨s1, hrun, haddrs, hclosings, hclosable⟩ := hclosed
  refine ⟨{ s1 with addresses := s1.addresses ++ [client.address] }, ?_, ?_, hclosings, hclosable⟩
  · exact (bind_of_ok hrun).trans rfl
  · exact congrArg (· ++ [client.address]) haddrs

section Attempts

variable {client : Client} {name : String} {op : Nat → Act Remote α} {s : Remote}

/-- Every attempt but the first is made on a new channel. -/
theorem attempt_again (client : Client) (name : String) (op : Nat → Act Remote α) {k : Nat}
    (hk : 1 < k) (hs : Closable s) :
    ∃ s', (client.attempt name op k).outcome s = (op k).outcome s' ∧
      Reopened client s s' := by
  obtain ⟨line, hlater⟩ := client.attempt_later name op hk
  let s1 : Remote := Journaled.addLine ⟨client.source, .info, "[DatabaseClient] " ++ line⟩ s
  have hsay : client.say .info line s = .ok () s1 := rfl
  obtain ⟨s2, hreconnect, hreopened⟩ := client.reconnect_run (s := s1) hs
  refine ⟨s2, ?_, hreopened.addresses, hreopened.closings, hreopened.closable⟩
  rw [hlater, outcome_bind_of_ok hsay, outcome_bind_of_ok hreconnect]

theorem ensures_attempt (hop : ∀ k, (op k).Keeps channels) (k : Nat) :
    Sustains (fun s => Tidy s ∧ Closable s) (client.attempt name op k) := by
  refine .of_outcome fun s hs => ?_
  by_cases hk : 1 < k
  · obtain ⟨s', hrun, hreopened⟩ := client.attempt_again name op hk hs.2
    rw [hrun]
    exact tidy_of_channels ((hop k).state s') ⟨hreopened.tidy hs.1, hreopened.closable⟩
  · rw [client.attempt_first name op hk]
    exact tidy_of_channels ((hop k).state s) hs

theorem ensures_persist (hop : ∀ k, (op k).Keeps channels) :
    Sustains (fun s => Tidy s ∧ Closable s) (client.persist name op) := by
  refine .read fun count => ensures_attemptFrom ?_ ?_ ?_ _ _ _
  · exact fun k => ensures_attempt hop k
  · intro k delay f
    exact ensures_modify fun s hs => tidy_of_channels (s := s) rfl hs
  · intro f
    exact ensures_modify fun s hs => tidy_of_channels (s := s) rfl hs

end Attempts

/-- The states that a client reaches: it opens its first channel, its operations are tried, and in
between anything may happen that opens and closes no channel. -/
inductive Reached (client : Client) : Remote → Prop
  | start {s : Remote} (hopened : s.addresses = []) (hclosed : s.closings = []) :
    Reached client (client.start.outcome s).2
  | call {s : Remote} {α : Type} {operation : Nat → Act Remote α} (name : String)
    (hs : Reached client s) (hclosable : Closable s)
    (hoperation : ∀ k, (operation k).Keeps channels) :
    Reached client ((client.persist name operation).outcome s).2
  | drift {s s' : Remote} (hs : Reached client s) (hopened : s'.addresses = s.addresses)
    (hclosed : s'.closings = s.closings) : Reached client s'

theorem Reached.tidy {client : Client} (h : client.Reached s) : Tidy s := by
  induction h with
  | @start s hopened hclosed =>
    have hrun : client.start s = .ok () { s with addresses := s.addresses ++ [client.address] } := rfl
    rw [outcome_of_ok hrun]
    refine ⟨?_, ?_⟩
    · simp
    · simp [Remote.current, hopened, hclosed]
  | call name _ hclosable hop ih => exact ((ensures_persist hop).state ⟨ih, hclosable⟩).1
  | drift _ hopened hclosed ih => exact ih.of_same hopened hclosed

end Client

/-! ## The loops and the channels -/

end SheetMill
