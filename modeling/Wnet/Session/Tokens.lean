import Wnet.Session.Channels
import Wnet.Session.Threads

/-!
# Who holds the channel of a request

A channel that is not free was allocated for one call of `PostPacket`, its
owner, and is at one place: with the call that posts it, in the packet queue,
with the call that encodes it, waiting for an answer, or with the call that is
about to report it. `Token` says this of one channel; a state of the session has
a token for every channel that is in use or detached and no other.
-/

namespace Wnet

open Foundation

variable {Body : Type*}

inductive Place
  | allocated (call : Nat)
  | filled (call : Nat)
  | queued
  | encoded (call : Nat)
  | sent
  | response (call : Nat)
  | scan (call : Nat)
  | drain (call : Nat)
  deriving DecidableEq

namespace Place

/-- The call in whose hands the channel is. -/
def holder : Place → Option Nat
  | .allocated call | .filled call | .encoded call | .response call | .scan call | .drain call =>
      some call
  | .queued | .sent => none

/-- Whether the channel is on the use list. -/
def inUse : Place → Bool
  | .response _ | .scan _ => false
  | .allocated _ | .filled _ | .queued | .encoded _ | .sent | .drain _ => true

/-- Whether the channel still has the expire time it was allocated with. -/
def unsent : Place → Bool
  | .allocated _ | .filled _ | .queued | .encoded _ | .drain _ => true
  | .sent | .response _ | .scan _ => false

/-- Whether the call that holds the channel is there to report it. -/
def reporting : Place → Bool
  | .response _ | .scan _ | .drain _ => true
  | .allocated _ | .filled _ | .queued | .encoded _ | .sent => false

theorem inUse_of_unsent {place : Place} (hunsent : place.unsent = true) : place.inUse = true := by
  cases place with
  | sent => rfl
  | response call => cases hunsent
  | scan call => cases hunsent
  | _ => rfl

theorem reporting_of_not_inUse {place : Place} (hinUse : place.inUse = false) :
    place.reporting = true := by
  cases place with
  | response call => rfl
  | scan call => rfl
  | _ => cases hinUse

theorem exists_holder_of_reporting {place : Place} (hreporting : place.reporting = true) :
    ∃ call, place.holder = some call := by
  cases place with
  | queued => cases hreporting
  | sent => cases hreporting
  | _ => exact ⟨_, rfl⟩

end Place

structure Token where
  owner : Nat
  place : Place
  invoked : Bool

/-- The tokens of all channels. -/
abbrev Tokens := Ref → Option Token

namespace Tokens

def relocate (tokens : Tokens) (moved : List Ref) (place : Place) : Tokens := fun channel =>
  if channel ∈ moved then (tokens channel).map fun token => { token with place := place }
  else tokens channel

def report (tokens : Tokens) (reported : Ref) : Tokens := fun channel =>
  if channel = reported then (tokens channel).map fun token => { token with invoked := true }
  else tokens channel

def release (tokens : Tokens) (gone : List Ref) : Tokens := fun channel =>
  if channel ∈ gone then none else tokens channel

end Tokens

/-- What a call holds at a stage: the channels, where they are, and whether their
handler was called. -/
def Holds (detached : List (List Ref)) (call : Nat) :
    Activity Body → List (Ref × Place × Bool) → Prop
  | .postPacket _ (.allocated _ channel), held => held = [(channel, .allocated call, false)]
  | .postPacket _ (.filled packet), held =>
      ∃ channel, packet.channel = some channel ∧ held = [(channel, .filled call, false)]
  | .postPacket _ (.encoded packet), held =>
      ∃ channel, packet.channel = some channel ∧ held = [(channel, .encoded call, false)]
  | .onConnection (.encoded packet), held =>
      ∃ channel, packet.channel = some channel ∧ held = [(channel, .encoded call, false)]
  | .handlePacket (.offered channel _), held =>
      [channel] ∈ detached ∧ held = [(channel, .response call, false)]
  | .handlePacket (.answered channel), held =>
      [channel] ∈ detached ∧ held = [(channel, .response call, true)]
  | .checkTimeout _ (.walking list channel), held =>
      ∃ before after, before ++ after ∈ detached ∧ (before ++ after).head? = some list ∧
        channel = after.head? ∧
        held = before.map (·, .scan call, true) ++ after.map (·, .scan call, false)
  | .checkTimeout _ (.notified list channel), held =>
      ∃ before after, before ++ channel :: after ∈ detached ∧
        (before ++ channel :: after).head? = some list ∧
        held = (before ++ [channel]).map (·, .scan call, true) ++
          after.map (·, .scan call, false)
  | .checkTimeout _ (.draining packetList), held =>
      ∃ channels : List Ref, packetList.map Posted.channel = channels.map some ∧
        held = channels.map (·, .drain call, false)
  | .checkTimeout _ (.drained channel packetList), held =>
      ∃ channels : List Ref, packetList.map Posted.channel = channels.map some ∧
        held = (channel, .drain call, true) :: channels.map (·, .drain call, false)
  | _, held => held = []

/-- The tokens with a call are exactly those of the channels it holds. -/
def Accounts (tokens : Tokens) (detached : List (List Ref)) (call : Nat)
    (activity : Activity Body) : Prop :=
  ∃ held, Holds detached call activity held ∧ (held.map Prod.fst).Nodup ∧
    ∀ channel place invoked, place.holder = some call →
      ((∃ owner, tokens channel = some ⟨owner, place, invoked⟩) ↔
        (channel, place, invoked) ∈ held)

namespace Accounts

variable {tokens tokens' : Tokens} {detached detached' : List (List Ref)} {call : Nat}
  {activity activity' : Activity Body}

/-- A call keeps what it holds as long as its own detached list stays detached. -/
theorem holds_of_keep {held : List (Ref × Place × Bool)}
    (hholds : Holds detached call activity held)
    (hkeep : ∀ chain ∈ detached, chain ≠ [] →
      (∀ channel ∈ chain, ∃ place invoked, (channel, place, invoked) ∈ held ∧
        place.holder = some call) → chain ∈ detached') :
    Holds detached' call activity held := by
  cases activity with
  | idle => exact hholds
  | postPacket request stage => cases stage <;> exact hholds
  | onConnection stage => cases stage <;> exact hholds
  -- Only answers and scans refer to a detached list.
  | handlePacket stage =>
      cases stage with
      | offered channel packet =>
          obtain ⟨hchain, rfl⟩ := hholds
          exact ⟨hkeep _ hchain (by simp) (by simp [Place.holder]), rfl⟩
      | answered channel =>
          obtain ⟨hchain, rfl⟩ := hholds
          exact ⟨hkeep _ hchain (by simp) (by simp [Place.holder]), rfl⟩
      | returned result => exact hholds
  | checkTimeout now stage =>
      cases stage with
      | walking list cursor =>
          obtain ⟨before, after, hchain, hlist, hcursor, rfl⟩ := hholds
          refine ⟨before, after, hkeep _ hchain ?_ ?_, hlist, hcursor, rfl⟩
          · intro hnil
            rw [hnil] at hlist
            cases hlist
          · intro channel hmem
            rcases List.mem_append.mp hmem with hmem | hmem
            · exact ⟨.scan call, true, by simp [hmem], rfl⟩
            · exact ⟨.scan call, false, by simp [hmem], rfl⟩
      | notified list channel =>
          obtain ⟨before, after, hchain, hlist, rfl⟩ := hholds
          refine ⟨before, after, hkeep _ hchain (by simp) ?_, hlist, rfl⟩
          intro other hmem
          rcases List.mem_append.mp hmem with hmem | hmem
          · exact ⟨.scan call, true, by simp [hmem], rfl⟩
          · rcases List.mem_cons.mp hmem with rfl | hmem
            · exact ⟨.scan call, true, by simp, rfl⟩
            · exact ⟨.scan call, false, by simp [hmem], rfl⟩
      | walked => exact hholds
      | draining packetList => exact hholds
      | drained channel packetList => exact hholds
      | returned => exact hholds

/-- What another call does to tokens that are not with this one. -/
theorem frame (haccounts : Accounts tokens detached call activity)
    (htokens : ∀ channel token, token.place.holder = some call →
      (tokens' channel = some token ↔ tokens channel = some token))
    (hkeep : ∀ chain ∈ detached, chain ≠ [] →
      (∀ channel ∈ chain, ∃ token, tokens channel = some token ∧
        token.place.holder = some call) → chain ∈ detached') :
    Accounts tokens' detached' call activity := by
  obtain ⟨held, hholds, hnodup, hheld⟩ := haccounts
  refine ⟨held, holds_of_keep hholds ?_, hnodup, ?_⟩
  · intro chain hchain hne hall
    refine hkeep chain hchain hne fun channel hmem => ?_
    obtain ⟨place, invoked, hentry, hholder⟩ := hall channel hmem
    obtain ⟨owner, htoken⟩ := (hheld channel place invoked hholder).mpr hentry
    exact ⟨_, htoken, hholder⟩
  · intro channel place invoked hholder
    rw [← hheld channel place invoked hholder]
    exact exists_congr fun owner => htokens channel ⟨owner, place, invoked⟩ hholder

/-- A call that goes on without giving anything away or taking anything. -/
theorem turn (haccounts : Accounts tokens detached call activity)
    (hsame : ∀ held, Holds detached call activity held → Holds detached call activity' held) :
    Accounts tokens detached call activity' := by
  obtain ⟨held, hholds, hnodup, hheld⟩ := haccounts
  exact ⟨held, hsame held hholds, hnodup, hheld⟩

section Acting

variable {held : List (Ref × Place × Bool)}
  (hheld : ∀ channel place invoked, place.holder = some call →
    ((∃ owner, tokens channel = some ⟨owner, place, invoked⟩) ↔ (channel, place, invoked) ∈ held))
include hheld

/-- A call takes channels, among them all that it held. -/
theorem relocate_to {moved : List Ref} {place : Place}
    (hall : ∀ entry ∈ held, entry.1 ∈ moved) (hnodup : moved.Nodup)
    (htokens : ∀ channel ∈ moved, ∃ token, tokens channel = some token ∧ token.invoked = false)
    (hholds : Holds detached' call activity' (moved.map (·, place, false))) :
    Accounts (tokens.relocate moved place) detached' call activity' := by
  refine ⟨_, hholds, ?_, ?_⟩
  · rw [List.map_map]
    simpa [Function.comp_def] using hnodup
  · intro channel place' invoked hholder
    by_cases hmem : channel ∈ moved
    · obtain ⟨token, htoken, hinvoked⟩ := htokens channel hmem
      simp only [Tokens.relocate, if_pos hmem, htoken, Option.map_some, Option.some.injEq,
        Token.mk.injEq, hinvoked, List.mem_map, Prod.mk.injEq]
      constructor
      · rintro ⟨owner, -, rfl, rfl⟩
        exact ⟨channel, hmem, rfl, rfl, rfl⟩
      · rintro ⟨-, -, -, rfl, rfl⟩
        exact ⟨token.owner, rfl, rfl, rfl⟩
    · simp only [Tokens.relocate, if_neg hmem]
      rw [hheld channel place' invoked hholder]
      constructor
      · exact fun hentry => absurd (hall _ hentry) hmem
      · intro hentry
        obtain ⟨other, hother, hsame⟩ := List.mem_map.mp hentry
        cases hsame
        exact absurd hother hmem

/-- A call gives all that it held away. -/
theorem relocate_from {moved : List Ref} {place : Place} (hplace : place.holder = none)
    (hall : ∀ entry ∈ held, entry.1 ∈ moved)
    (hholds : Holds detached' call activity' []) :
    Accounts (tokens.relocate moved place) detached' call activity' := by
  refine ⟨[], hholds, List.nodup_nil, ?_⟩
  intro channel place' invoked hholder
  simp only [List.not_mem_nil, iff_false, not_exists]
  intro owner htoken
  by_cases hmem : channel ∈ moved
  · simp only [Tokens.relocate, if_pos hmem, Option.map_eq_some_iff, Token.mk.injEq] at htoken
    obtain ⟨token, -, -, rfl, -⟩ := htoken
    rw [hplace] at hholder
    cases hholder
  · simp only [Tokens.relocate, if_neg hmem] at htoken
    exact hmem (hall _ ((hheld channel place' invoked hholder).mp ⟨owner, htoken⟩))

/-- A call has the handler of one of its channels called. -/
theorem report {held' : List (Ref × Place × Bool)} {reported : Ref} {place : Place}
    (hplace : place.holder = some call) (hentry : (reported, place, false) ∈ held)
    (hnodup : (held'.map Prod.fst).Nodup)
    (hheld' : ∀ entry, entry ∈ held' ↔
      entry ∈ held ∧ entry.1 ≠ reported ∨ entry = (reported, place, true))
    (hholds : Holds detached' call activity' held') :
    Accounts (tokens.report reported) detached' call activity' := by
  obtain ⟨owner, htoken⟩ := (hheld reported place false hplace).mpr hentry
  refine ⟨held', hholds, hnodup, ?_⟩
  intro channel place' invoked hholder
  rw [hheld']
  by_cases hsame : channel = reported
  · subst hsame
    have hnew : tokens.report channel channel = some ⟨owner, place, true⟩ := by
      simp [Tokens.report, htoken]
    simp only [hnew, Option.some.injEq, Token.mk.injEq, ne_eq, not_true_eq_false, and_false,
      false_or, Prod.mk.injEq, true_and]
    constructor
    · rintro ⟨-, -, rfl, rfl⟩
      exact ⟨rfl, rfl⟩
    · rintro ⟨rfl, rfl⟩
      exact ⟨owner, rfl, rfl, rfl⟩
  · simp only [Tokens.report, if_neg hsame]
    rw [hheld channel place' invoked hholder]
    simp [hsame]

/-- A call gives channels back to the pool. -/
theorem release {held' : List (Ref × Place × Bool)} {gone : List Ref}
    (hnodup : (held'.map Prod.fst).Nodup)
    (hheld' : ∀ entry, entry ∈ held' ↔ entry ∈ held ∧ entry.1 ∉ gone)
    (hholds : Holds detached' call activity' held') :
    Accounts (tokens.release gone) detached' call activity' := by
  refine ⟨held', hholds, hnodup, ?_⟩
  intro channel place invoked hholder
  rw [hheld']
  by_cases hmem : channel ∈ gone
  · simp [Tokens.release, hmem]
  · simp only [Tokens.release, if_neg hmem]
    rw [hheld channel place invoked hholder]
    simp [hmem]

end Acting

end Accounts

end Wnet
