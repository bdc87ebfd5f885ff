import SheetMill.Broker.Connections
import SheetMill.Proofs.Work

/-!
# Threads and their connections

Threads ask for their connections and channels and close them, in any order, and at any time a
connection or a channel is lost; with a connection, the channels on it are lost. In every such
history an open channel is the one kept for its thread, and it is on the one open connection of the
thread.
-/

namespace SheetMill.Broker

open Act List Option

variable {s s' : State} {t k c n : Nat} {r : Outcome (Option Nat)}

/-! ## Histories -/

/-- The state after a connection was closed from outside, and with it all channels on it. -/
def State.loseConnection (s : State) (connection : Nat) : State :=
  { s.closeConnection connection with
    channels := s.channels.map fun c => { c with isOpen := c.isOpen && c.connection != connection } }

inductive Event where
  | connection (thread : Nat)
  | channel (thread : Nat)
  | closing (thread : Nat)
  | connectionLost (connection : Nat)
  | channelLost (channel : Nat)

namespace Event

def thread? : Event → Option Nat
  | .connection t | .channel t | .closing t => some t
  | .connectionLost _ | .channelLost _ => none

/-- Lets the event happen, and gives the number of what is handed to the thread. -/
def happen : Event → Work (Option Nat)
  | .connection t => do return some (← threadConnection t)
  | .channel t => do return some (← threadChannel t)
  | .closing t => do
    closeThread t
    return none
  | .connectionLost k => do
    modify (·.loseConnection k)
    return none
  | .channelLost c => do
    modify (·.closeChannel c)
    return none

end Event

structure Scene where
  event : Event
  before : State
  outcome : Outcome (Option Nat)
  after : State

def Scene.of (event : Event) (s : State) : Scene :=
  ⟨event, s, (event.happen.outcome s).1, (event.happen.outcome s).2⟩

def scenes : State → List Event → List Scene
  | _, [] => []
  | s, event :: rest => .of event s :: scenes (Scene.of event s).after rest

def Scene.Gives (m : Scene) (event : Event) (number : Nat) : Prop :=
  m.event = event ∧ m.outcome = .ok (some number)

def Scene.Makes (m : Scene) (thread connection : Nat) : Prop :=
  m.event.thread? = some thread ∧ m.before.connections.length ≤ connection ∧
    connection < m.after.connections.length

/-! ## Rolls

Connections and channels are kept in the same way: they are numbered in the order in which they are
made, and a table has one of them for each thread. -/

theorem lookup_filter_bne (table : List (Nat × Nat)) (t t' : Nat) :
    (table.filter (·.1 != t)).lookup t' = if t' = t then none else table.lookup t' := by
  induction table with
  | nil => simp
  | cons entry rest ih =>
    obtain ⟨u, n⟩ := entry
    by_cases hu : u = t
    · by_cases ht : t' = t
      · simpa [hu, ht] using ih
      · simpa [hu, ht, lookup, beq_eq_false_iff_ne.mpr ht] using ih
    · by_cases ht : t' = u
      · simp [hu, ht, lookup]
      · simpa [hu, lookup, beq_eq_false_iff_ne.mpr ht] using ih

theorem getElem?_mono {xs ys : List Nat} {i x : Nat} (h : xs <+: ys) (hx : xs[i]? = some x) :
    ys[i]? = some x := by
  obtain ⟨rest, rfl⟩ := h
  rw [List.getElem?_append_left (List.getElem?_eq_some_iff.mp hx).1, hx]

/-- The things of one sort are those of their owners: what the table has for a thread was made for
it, and what is live and was made for a thread is what the table has for it. -/
structure Roll (count : Nat) (live : Nat → Bool) (table : List (Nat × Nat)) (owners : List Nat) :
    Prop where
  count : owners.length = count
  owned : ∀ t n, table.lookup t = some n → owners[n]? = some t
  kept : ∀ t n, owners[n]? = some t → live n = true → table.lookup t = some n

namespace Roll

variable {count : Nat} {live live' : Nat → Bool} {table : List (Nat × Nat)} {owners : List Nat}

theorem shut (h : Roll count live table owners) (hlive : ∀ n, live' n = true → live n = true) :
    Roll count live' table owners :=
  ⟨h.count, h.owned, fun t n ht hn => h.kept t n ht (hlive n hn)⟩

/-- A thread is forgotten for which nothing live is kept. -/
theorem forget (h : Roll count live table owners) (hdead : (table.lookup t).filter live = none) :
    Roll count live (table.filter (·.1 != t)) owners where
  count := h.count
  owned t' n ht' := by
    rw [lookup_filter_bne] at ht'
    grind [h.owned t' n]
  kept t' n ht' hn := by
    have hkept := h.kept t' n ht' hn
    rw [lookup_filter_bne, if_neg, hkept]
    rintro rfl
    exact filter_eq_none_iff.mp hdead n hkept hn

/-- A new thing is made for a thread for which nothing live is kept. -/
theorem add (h : Roll count live table owners) (hdead : (table.lookup t).filter live = none)
    (hlive : ∀ n, live' n = true → live n = true ∨ n = count) :
    Roll (count + 1) live' ((t, count) :: table.filter (·.1 != t)) (owners ++ [t]) := by
  have hlook : ∀ t', ((t, count) :: table.filter (·.1 != t)).lookup t' =
      if t' = t then some count else table.lookup t' := by
    intro t'
    by_cases ht : t' = t
    · simp [ht]
    · rw [lookup_cons, beq_eq_false_iff_ne.mpr ht, if_neg ht]
      exact (lookup_filter_bne table t t').trans (if_neg ht)
  have hcnt := h.count
  refine ⟨by simp [hcnt], fun t' n ht' => ?_, fun t' n ht' hn => ?_⟩
  · rw [hlook] at ht'
    split_ifs at ht' with ht
    · cases ht'
      simp [← hcnt, ht]
    · exact getElem?_mono (prefix_append _ _) (h.owned t' n ht')
  -- an older one that is live belongs to another thread, as nothing live is kept for this one
  · rw [hlook]
    rcases Nat.lt_or_ge n count with hlt | hge
    · rw [getElem?_append_left (hcnt ▸ hlt)] at ht'
      have hkept := h.kept t' n ht' ((hlive n hn).resolve_right hlt.ne)
      rw [if_neg, hkept]
      rintro rfl
      exact filter_eq_none_iff.mp hdead n hkept ((hlive n hn).resolve_right hlt.ne)
    · grind

end Roll

/-! ## The ledger -/

structure Ledger where
  connections : List Nat
  channels : List Nat

/-- The ledger is in keeping with the state, and every open channel is on an open connection of the
same thread. -/
structure Ledger.Fits (l : Ledger) (s : State) : Prop where
  connections : Roll s.connections.length s.isConnected s.connectionOf l.connections
  channels : Roll s.channels.length s.isOpen s.channelOf l.channels
  carried : ∀ c k : Nat, s.channels[c]? = some ⟨k, true⟩ →
    s.isConnected k = true ∧ l.connections[k]? = l.channels[c]?

variable {l l' l'' : Ledger}

theorem isOpen_iff : s.isOpen c = true ↔ ∃ k, s.channels[c]? = some ⟨k, true⟩ := by
  unfold State.isOpen
  cases h : s.channels[c]? with
  | none => simp
  | some channel =>
    obtain ⟨k, isOpen⟩ := channel
    simp

theorem isConnected_iff : s.isConnected k = true ↔ s.connections[k]? = some true := by
  unfold State.isConnected
  rw [getD_eq_getElem?_getD]
  cases s.connections[k]? <;> simp

/-- The open connection of the thread is the one of its open channel. -/
theorem Ledger.Fits.lookup_of_open (h : l.Fits s) (hc : s.channelOf.lookup t = some c)
    (hk : s.channels[c]? = some ⟨k, true⟩) :
    s.connectionOf.lookup t = some k ∧ s.isConnected k = true := by
  obtain ⟨hconn, howner⟩ := h.carried c k hk
  rw [h.channels.owned t c hc] at howner
  exact ⟨h.connections.kept t k howner hconn, hconn⟩

/-- Some connections and channels are closed, and with a connection the channels on it. -/
theorem Ledger.Fits.shut (h : l.Fits s) (hconns : s'.connections.length = s.connections.length)
    (hchans : s'.channels.length = s.channels.length)
    (htables : s'.connectionOf = s.connectionOf ∧ s'.channelOf = s.channelOf)
    (hconn : ∀ k, s'.isConnected k = true → s.isConnected k = true)
    (hopen : ∀ c k : Nat, s'.channels[c]? = some ⟨k, true⟩ →
      s.channels[c]? = some ⟨k, true⟩ ∧ s'.isConnected k = s.isConnected k) : l.Fits s' where
  connections := by
    rw [hconns, htables.1]
    exact h.connections.shut hconn
  channels := by
    rw [hchans, htables.2]
    refine h.channels.shut fun c hc => ?_
    obtain ⟨k, hk⟩ := isOpen_iff.mp hc
    exact isOpen_iff.mpr ⟨k, (hopen c k hk).1⟩
  carried c k hc := by
    rw [(hopen c k hc).2]
    exact h.carried c k (hopen c k hc).1

theorem getElem?_closeChannel (s : State) (c c' : Nat) :
    (s.closeChannel c).channels[c']? = some ⟨k, true⟩ ↔
      c' ≠ c ∧ s.channels[c']? = some ⟨k, true⟩ := by
  unfold State.closeChannel
  by_cases h : c' = c
  · subst h
    simp
  · simp [h, Ne.symm h]

theorem Ledger.Fits.closeChannel (h : l.Fits s) (c : Nat) : l.Fits (s.closeChannel c) :=
  h.shut rfl (by simp [State.closeChannel]) ⟨rfl, rfl⟩ (fun _ hk => hk)
    fun c' _ hc' => ⟨((getElem?_closeChannel s c c').mp hc').2, rfl⟩

theorem isConnected_closeConnection (s : State) (k k' : Nat) :
    (s.closeConnection k).isConnected k' = (s.isConnected k' && k' != k) := by
  unfold State.closeConnection State.isConnected
  by_cases h : k' = k
  · subst h
    by_cases hlt : k' < s.connections.length <;> simp [getD_eq_getElem?_getD, hlt]
  · simp [getD_eq_getElem?_getD, h, Ne.symm h]

theorem Ledger.Fits.closeConnection (h : l.Fits s)
    (hclosed : ∀ c : Nat, s.channels[c]? ≠ some ⟨k, true⟩) : l.Fits (s.closeConnection k) := by
  refine h.shut (by simp [State.closeConnection]) rfl ⟨rfl, rfl⟩ (fun k' hk' => ?_)
    fun c k' hc => ⟨hc, ?_⟩
  · rw [isConnected_closeConnection, Bool.and_eq_true] at hk'
    exact hk'.1
  · have hne : k' ≠ k := fun heq => hclosed c (heq ▸ hc)
    simp [isConnected_closeConnection, hne]

theorem Ledger.Fits.loseConnection (h : l.Fits s) (k : Nat) : l.Fits (s.loseConnection k) := by
  refine h.shut (by simp [State.loseConnection, State.closeConnection])
    (by simp [State.loseConnection]) ⟨rfl, rfl⟩ (fun k' hk' => ?_) fun c k' hc => ?_
  · rw [show (s.loseConnection k).isConnected k' = _ from isConnected_closeConnection s k k',
      Bool.and_eq_true] at hk'
    exact hk'.1
  · simp only [State.loseConnection, getElem?_map, map_eq_some_iff, Channel.mk.injEq,
      Bool.and_eq_true, bne_iff_ne] at hc
    obtain ⟨⟨k1, isOpen⟩, hold, rfl, rfl, hne⟩ := hc
    refine ⟨hold, (isConnected_closeConnection s k k1).trans ?_⟩
    simp [hne]

/-- A connection is made for a thread that has none that is open. -/
theorem Ledger.Fits.connect (h : l.Fits s)
    (hdead : (s.connectionOf.lookup t).filter s.isConnected = none) :
    Ledger.Fits { l with connections := l.connections ++ [t] } { s with
      connections := s.connections ++ [true]
      connectionOf := (t, s.connections.length) :: s.connectionOf.filter (·.1 != t) } where
  connections := by
    rw [length_append, length_singleton]
    refine h.connections.add hdead fun n hn => ?_
    rw [isConnected_iff] at hn ⊢
    grind
  channels := h.channels
  carried c k hc := by
    obtain ⟨hk, howner⟩ := h.carried c k hc
    rw [isConnected_iff] at hk
    have hlt := (List.getElem?_eq_some_iff.mp hk).1
    refine ⟨isConnected_iff.mpr (by rwa [List.getElem?_append_left hlt]), ?_⟩
    rw [List.getElem?_append_left (h.connections.count ▸ hlt), howner]

/-- A channel is opened for a thread that has none that is open, on its open connection. -/
theorem Ledger.Fits.open (h : l.Fits s) (hdead : (s.channelOf.lookup t).filter s.isOpen = none)
    (hk : s.connectionOf.lookup t = some k) (hconn : s.isConnected k = true) :
    Ledger.Fits { l with channels := l.channels ++ [t] } { s with
      channels := s.channels ++ [⟨k, true⟩]
      channelOf := (t, s.channels.length) :: s.channelOf.filter (·.1 != t) } where
  connections := h.connections
  channels := by
    rw [length_append, length_singleton]
    refine h.channels.add hdead fun n hn => ?_
    obtain ⟨k', hk'⟩ := isOpen_iff.mp hn
    rw [isOpen_iff]
    grind
  carried c k' hc := by
    have hcnt := h.channels.count
    rcases Nat.lt_or_ge c s.channels.length with hlt | hge
    · rw [getElem?_append_left hlt] at hc
      rw [getElem?_append_left (hcnt ▸ hlt)]
      exact h.carried c k' hc
    · obtain ⟨rfl, rfl⟩ : c = s.channels.length ∧ k = k' := by grind
      refine ⟨hconn, ?_⟩
      rw [h.connections.owned t k hk, ← hcnt, getElem?_concat_length]

/-! ## Calls -/

theorem Ledger.Fits.of_call (h : l.Fits s) (calls : List (String × Value))
    (outages : List (Outage Strike)) (clock : Amount) : l.Fits { s with calls, outages, clock } :=
  ⟨h.connections, h.channels, h.carried⟩

theorem call_ends (h : l.Fits s) (name : String) (arguments : List (String × Value))
    (channel : Option Nat) :
    (call name arguments channel).Ends s (fun _ s' => ∃ calls outages, s' = { s with calls, outages })
      fun _ s' => l.Fits s' := by
  refine .get ?_
  dsimp only
  cases (Outage.strike "broker" name s.outages).1 with
  | none => exact ends_modify ⟨_, _, rfl⟩
  | some strike =>
    cases channel with
    | none => exact h.of_call ..
    | some c =>
      dsimp only
      split_ifs
      · exact (h.of_call ..).closeChannel c
      · exact h.of_call ..

theorem connectionParams_ends {Q : List (String × Value) → State → Prop} (h : l.Fits s)
    (hQ : ∀ params, Q params s) : connectionParams.Ends s Q fun _ s' => l.Fits s' := by
  iterate 5 refine .given (fun _ _ => ?_) fun _ _ => h
  exact ends_pure (hQ _)

def Ledger.Grows (l l' : Ledger) (thread : Nat) : Prop :=
  (∃ n, l'.connections = l.connections ++ replicate n thread) ∧ l.channels <+: l'.channels

theorem Ledger.Grows.refl (l : Ledger) (t : Nat) : l.Grows l t := ⟨⟨0, by simp⟩, prefix_rfl⟩

/-- The connection that a thread gets is open, and it is the one kept for the thread. -/
theorem threadConnection_ends (h : l.Fits s) (t : Nat) :
    (threadConnection t).Ends s
      (fun k s' => s'.connectionOf.lookup t = some k ∧ s'.isConnected k = true ∧
        ∃ l', l.Grows l' t ∧ l'.Fits s')
      fun _ s' => l.Fits s' := by
  refine .get ?_
  cases hkept : (s.connectionOf.lookup t).filter s.isConnected with
  | some k =>
    obtain ⟨hk, hconn⟩ := filter_eq_some_iff.mp hkept
    exact ends_pure ⟨hk, hconn, l, .refl l t, h⟩
  | none =>
    refine .bind (connectionParams_ends h fun params => ?_)
    refine .bind ((call_ends h _ _ _).mono ?_ fun _ _ hs1 => hs1)
    rintro _ _ ⟨calls, outages, rfl⟩
    refine .get (.bind (ends_modify (ends_pure ⟨?_, ?_, _, ?_, (h.of_call ..).connect hkept⟩)))
    · simp
    · simp [isConnected_iff]
    · exact ⟨⟨1, rfl⟩, prefix_rfl⟩

/-- The channel that a thread gets is open, and it is on the open connection of the thread. -/
theorem threadChannel_ends (h : l.Fits s) (t : Nat) :
    (threadChannel t).Ends s
      (fun c s' => (∃ k, s'.channels[c]? = some ⟨k, true⟩ ∧ s'.connectionOf.lookup t = some k ∧
          s'.isConnected k = true) ∧
        ∃ l', l.Grows l' t ∧ l'.Fits s' ∧ l'.channels[c]? = some t)
      fun _ s' => ∃ l', l.Grows l' t ∧ l'.Fits s' := by
  refine .bind ((threadConnection_ends h t).mono (fun k s1 hs1 => ?_)
    fun _ _ hs1 => ⟨l, .refl l t, hs1⟩)
  obtain ⟨hk, hconn, l1, hl1, h1⟩ := hs1
  refine .get ?_
  cases hkept : (s1.channelOf.lookup t).filter s1.isOpen with
  | some c =>
    -- the channel may be older than this call; the ledger says which connection it is on
    obtain ⟨hc, hopen⟩ := filter_eq_some_iff.mp hkept
    obtain ⟨k', hk'⟩ := isOpen_iff.mp hopen
    exact ends_pure ⟨⟨k', hk', h1.lookup_of_open hc hk'⟩, l1, hl1, h1, h1.channels.owned t c hc⟩
  | none =>
    refine .bind ((call_ends h1 _ _ _).mono ?_ fun _ _ hs2 => ⟨l1, hl1, hs2⟩)
    rintro _ _ ⟨calls, outages, rfl⟩
    refine .get (.bind (ends_modify (ends_pure ⟨⟨k, by simp, hk, hconn⟩,
      { l1 with channels := l1.channels ++ [t] }, ⟨hl1.1, hl1.2.trans (prefix_append _ _)⟩,
      (h1.of_call ..).open hkept hk hconn, ?_⟩)))
    rw [← h1.channels.count, getElem?_concat_length]

/-- A connection is closed only after the channel of its thread, so no open channel is on it. -/
theorem disconnectThread_leaves (h : l.Fits s)
    (hclosed : ∀ c, s.channelOf.lookup t = some c → s.isOpen c = false) :
    (disconnectThread t).Leaves s l.Fits := by
  refine .get ?_
  cases hkept : (s.connectionOf.lookup t).filter s.isConnected with
  | none => exact ends_pure h
  | some k =>
    obtain ⟨hk, -⟩ := filter_eq_some_iff.mp hkept
    have h1 : l.Fits (s.closeConnection k) := by
      -- an open channel on the connection would be the one kept for the thread
      refine h.closeConnection fun c hc => ?_
      have howner : l.channels[c]? = some t :=
        (h.carried c k hc).2.symm.trans (h.connections.owned t k hk)
      have hopen : s.isOpen c = true := isOpen_iff.mpr ⟨k, hc⟩
      rw [hclosed c (h.channels.kept t c howner hopen)] at hopen
      cases hopen
    refine .bind (ends_modify (.bind ((call_ends h1 _ _ _).mono ?_ fun _ _ hs2 => hs2)))
    rintro _ _ ⟨calls, outages, rfl⟩
    refine ends_modify ⟨h1.connections.forget ?_, h1.channels, h1.carried⟩
    rw [show (s.closeConnection k).connectionOf.lookup t = some k from hk]
    simp [isConnected_closeConnection]

theorem closeThread_leaves (h : l.Fits s) (t : Nat) : (closeThread t).Leaves s l.Fits := by
  refine .get ?_
  cases hkept : (s.channelOf.lookup t).filter s.isOpen with
  | none =>
    refine disconnectThread_leaves h fun c hc => ?_
    exact Bool.eq_false_iff.mpr (filter_eq_none_iff.mp hkept c hc)
  | some c =>
    obtain ⟨hc, -⟩ := filter_eq_some_iff.mp hkept
    have h1 : l.Fits (s.closeChannel c) := h.closeChannel c
    have hdead : (s.closeChannel c).isOpen c = false := by
      rw [← Bool.not_eq_true, isOpen_iff]
      rintro ⟨k, hk⟩
      exact ((getElem?_closeChannel s c c).mp hk).1 rfl
    refine .bind (.bind (ends_modify ((call_ends h1 _ _ _).mono ?_ fun _ _ hs1 => hs1)))
    rintro _ _ ⟨calls, outages, rfl⟩
    refine .bind (ends_modify (disconnectThread_leaves ⟨h1.connections, h1.channels.forget ?_,
      h1.carried⟩ fun c' hc' => ?_))
    · rw [show (s.closeChannel c).channelOf.lookup t = some c from hc]
      simp [hdead]
    · rw [lookup_filter_bne, if_pos rfl] at hc'
      cases hc'

/-! ## Whole histories -/

/-- What a scene shows, in keeping with a ledger of the whole history. -/
structure Scene.Sound (m : Scene) (l : Ledger) : Prop where
  fits : ∃ l' : Ledger, l'.connections <+: l.connections ∧ l'.Fits m.after
  makes : ∀ t k, m.Makes t k → l.connections[k]? = some t
  connection : ∀ t k, m.Gives (.connection t) k → l.connections[k]? = some t
  channel : ∀ t c, m.Gives (.channel t) c → l.channels[c]? = some t ∧
    ∃ k, m.after.channels[c]? = some ⟨k, true⟩ ∧ m.after.connectionOf.lookup t = some k ∧
      m.after.isConnected k = true

def Ledger.Below (l l' : Ledger) : Prop :=
  l.connections <+: l'.connections ∧ l.channels <+: l'.channels

theorem Ledger.Below.refl (l : Ledger) : l.Below l := ⟨prefix_rfl, prefix_rfl⟩

theorem Scene.Sound.mono {m : Scene} (h : m.Sound l) (hl : l.Below l') : m.Sound l' where
  fits := h.fits.imp fun _ hl0 => ⟨hl0.1.trans hl.1, hl0.2⟩
  makes t k hm := getElem?_mono hl.1 (h.makes t k hm)
  connection t k hm := getElem?_mono hl.1 (h.connection t k hm)
  channel t c hm := ⟨getElem?_mono hl.2 (h.channel t c hm).1, (h.channel t c hm).2⟩

/-- The ledger can be kept up after an event. -/
def Ledger.Covers (l : Ledger) (event : Event) (s : State) (r : Outcome (Option Nat)) (s' : State) :
    Prop :=
  ∃ l', l.Below l' ∧ l'.Fits s' ∧ (Scene.mk event s r s').Sound l'

theorem Ledger.Fits.covers {event : Event} (h : l.Fits s) (h' : l'.Fits s') (hgrows : l.Grows l' t)
    (hthread : ∀ t', event.thread? = some t' → t' = t)
    (hconn : ∀ t n, event = .connection t → r = .ok (some n) → l'.connections[n]? = some t)
    (hchan : ∀ t n, event = .channel t → r = .ok (some n) → l'.channels[n]? = some t ∧
      ∃ k, s'.channels[n]? = some ⟨k, true⟩ ∧ s'.connectionOf.lookup t = some k ∧
        s'.isConnected k = true) : l.Covers event s r s' := by
  obtain ⟨⟨count, hcnt⟩, hchans⟩ := hgrows
  refine ⟨l', ⟨⟨_, hcnt.symm⟩, hchans⟩, h', ⟨l', prefix_rfl, h'⟩, ?_,
    fun t n hm => hconn t n hm.1 hm.2, fun t n hm => hchan t n hm.1 hm.2⟩
  rintro t' k ⟨ht', hle, hlt⟩
  rw [← h.connections.count] at hle
  rw [← h'.connections.count, hcnt, length_append, length_replicate] at hlt
  rw [hcnt, getElem?_append_right hle, getElem?_replicate, if_pos (by omega),
    hthread t' ht']

theorem Ledger.Fits.covers_idle {event : Event} (h : l.Fits s) (h' : l.Fits s')
    (hr : ∀ n, r ≠ .ok (some n)) : l.Covers event s r s' :=
  h.covers (t := event.thread?.getD 0) h' (.refl l _) (fun _ ht' => by rw [ht', getD_some])
    (fun _ n _ hn => (hr n hn).elim) fun _ n _ hn => (hr n hn).elim

/-- Whatever happens and however it ends, the ledger can be kept up. -/
theorem Ledger.Fits.happen (h : l.Fits s) (event : Event) :
    event.happen.Ends s (fun r s' => l.Covers event s (.ok r) s')
      fun f s' => l.Covers event s (.error f) s' := by
  cases event with
  | connection t =>
    refine .bind ((threadConnection_ends h t).mono (fun k s' hs' => ?_)
      fun f s' hs' => h.covers_idle hs' nofun)
    obtain ⟨hk, -, l', hgrows, h'⟩ := hs'
    refine ends_pure (h.covers h' hgrows (by rintro _ ⟨⟩; rfl) ?_ nofun)
    rintro _ _ ⟨⟩ ⟨⟩
    exact h'.connections.owned t k hk
  | channel t =>
    refine .bind ((threadChannel_ends h t).mono (fun c s' hs' => ?_) fun f s' hs' => ?_)
    · obtain ⟨hopen, l', hgrows, h', hc⟩ := hs'
      refine ends_pure (h.covers h' hgrows (by rintro _ ⟨⟩; rfl) nofun ?_)
      rintro _ _ ⟨⟩ ⟨⟩
      exact ⟨hc, hopen⟩
    · obtain ⟨l', hgrows, h'⟩ := hs'
      exact h.covers h' hgrows (by rintro _ ⟨⟩; rfl) nofun nofun
  | closing t =>
    exact .bind ((closeThread_leaves h t).mono
      (fun _ s' hs' => ends_pure (h.covers_idle hs' nofun)) fun f s' hs' => h.covers_idle hs' nofun)
  | connectionLost k =>
    exact .bind (ends_modify (ends_pure (h.covers_idle (h.loseConnection k) nofun)))
  | channelLost c =>
    exact .bind (ends_modify (ends_pure (h.covers_idle (h.closeChannel c) nofun)))

/-- One ledger covers a whole history. -/
theorem Ledger.Fits.scenes (h : l.Fits s) (events : List Event) :
    ∃ l', l.Below l' ∧ ∀ m ∈ scenes s events, m.Sound l' := by
  -- the ledger grows with the events, and what earlier scenes show is in keeping with the later one
  induction events generalizing s l with
  | nil => exact ⟨l, .refl l, forall_mem_nil _⟩
  | cons event rest ih =>
    obtain ⟨l1, hbelow1, h1, hsound⟩ : l.Covers event s (Scene.of event s).outcome
        (Scene.of event s).after := Ends.outcome (h.happen event)
    obtain ⟨l2, hbelow2, hrest⟩ := ih h1
    refine ⟨l2, ⟨hbelow1.1.trans hbelow2.1, hbelow1.2.trans hbelow2.2⟩, ?_⟩
    exact forall_mem_cons.mpr ⟨hsound.mono hbelow2, hrest⟩

def State.links (s : State) : List Bool × List Channel × List (Nat × Nat) × List (Nat × Nat) :=
  (s.connections, s.channels, s.connectionOf, s.channelOf)

def State.Fresh (s : State) : Prop := s.links = ([], [], [], [])

theorem State.Fresh.fits (h : s.Fresh) : Ledger.Fits ⟨[], []⟩ s := by
  simp only [Fresh, links, Prod.mk.injEq] at h
  obtain ⟨hconns, hchans, hconnOf, hchannelOf⟩ := h
  refine ⟨⟨?_, ?_, ?_⟩, ⟨?_, ?_, ?_⟩, ?_⟩ <;>
    simp [hconns, hchans, hconnOf, hchannelOf]

end SheetMill.Broker
