import Mathlib.Data.List.Basic
import Mathlib.Data.List.Nodup

/-!
# Linked lists threaded through a pointer field

A pointer field of a heap of nodes is a partial successor function. `Chain`
says that following the field from the first node of a list visits exactly the
nodes of that list and then stops at a given end. A doubly linked list is a
pair of chains: one through the forward field, one through the backward field
over the reversed list. All surgery on intrusive lists (append, unlink, split)
is therefore stated once, for one field.
-/

namespace Wnet.Foundation

variable {α : Type*} {next next' : α → Option α}

/-- The field `next` leads through `nodes` in order, and from the last to `stop`. -/
def Chain (next : α → Option α) : List α → Option α → Prop
  | [], _ => True
  | node :: rest, stop => next node = rest.head?.or stop ∧ Chain next rest stop

@[simp] theorem chain_nil {stop : Option α} : Chain next [] stop := trivial

@[simp] theorem chain_cons {node : α} {rest : List α} {stop : Option α} :
    Chain next (node :: rest) stop ↔
      next node = rest.head?.or stop ∧ Chain next rest stop := Iff.rfl

theorem chain_append {first second : List α} {stop : Option α} :
    Chain next (first ++ second) stop ↔
      Chain next first (second.head?.or stop) ∧ Chain next second stop := by
  induction first with
  | nil => simp
  | cons node rest ih =>
      simp only [List.cons_append, chain_cons, ih, List.head?_append, Option.or_assoc]
      exact and_assoc.symm

/-- A chain only depends on the field at its own nodes. -/
theorem Chain.congr {nodes : List α} {stop : Option α} (hchain : Chain next nodes stop)
    (hsame : ∀ node ∈ nodes, next' node = next node) : Chain next' nodes stop := by
  induction nodes with
  | nil => trivial
  | cons node rest ih =>
      refine ⟨(hsame node List.mem_cons_self).trans hchain.1, ih hchain.2 ?_⟩
      intro other hother
      exact hsame other (List.mem_cons_of_mem _ hother)

/-- Redirecting the field of the last node moves the end of the chain. -/
theorem Chain.redirect {nodes : List α} {stop stop' : Option α}
    (hchain : Chain next nodes stop)
    (hlast : ∀ node, nodes.getLast? = some node → next' node = stop')
    (hsame : ∀ node ∈ nodes, nodes.getLast? ≠ some node → next' node = next node)
    (hnodup : nodes.Nodup) : Chain next' nodes stop' := by
  rcases List.eq_nil_or_concat nodes with rfl | ⟨init, last, rfl⟩
  · trivial
  simp only [List.concat_eq_append] at *
  have hlast' : (init ++ [last]).getLast? = some last := by simp
  rw [chain_append] at hchain ⊢
  have hnot : last ∉ init := by
    intro hmem
    exact (List.nodup_append.mp hnodup).2.2 last hmem last (by simp) rfl
  refine ⟨hchain.1.congr ?_, ?_, trivial⟩
  · intro node hnode
    apply hsame node (List.mem_append_left _ hnode)
    rw [hlast']
    rintro ⟨rfl⟩
    exact hnot hnode
  · simpa using hlast last hlast'

/-- Appending one node at the end of a chain. -/
theorem Chain.concat {nodes : List α} {node : α} {stop stop' : Option α}
    (hchain : Chain next nodes stop)
    (hlast : ∀ last, nodes.getLast? = some last → next' last = some node)
    (hsame : ∀ other ∈ nodes, nodes.getLast? ≠ some other → next' other = next other)
    (hnode : next' node = stop') (hnodup : nodes.Nodup) :
    Chain next' (nodes ++ [node]) stop' := by
  rw [chain_append]
  refine ⟨?_, by simpa using hnode⟩
  exact hchain.redirect (by simpa using hlast) hsame hnodup

/-- Unlinking one node: its predecessor takes over its successor. -/
theorem Chain.unlink {before after : List α} {node : α} {stop : Option α}
    (hchain : Chain next (before ++ node :: after) stop)
    (hlast : ∀ last, before.getLast? = some last → next' last = next node)
    (hbefore : ∀ other ∈ before, before.getLast? ≠ some other → next' other = next other)
    (hafter : ∀ other ∈ after, next' other = next other)
    (hnodup : before.Nodup) : Chain next' (before ++ after) stop := by
  rw [chain_append, chain_cons] at hchain
  obtain ⟨hfirst, hnode, hrest⟩ := hchain
  rw [chain_append]
  exact ⟨hfirst.redirect (fun last h => (hlast last h).trans hnode) hbefore hnodup,
    hrest.congr hafter⟩

/-- Two chains from the same node to the same terminal end are equal. -/
theorem Chain.unique {first second : List α} (hfirst : Chain next first none)
    (hsecond : Chain next second none) (hhead : first.head? = second.head?) :
    first = second := by
  induction first generalizing second with
  | nil =>
      cases second with
      | nil => rfl
      | cons node rest => simp at hhead
  | cons node rest ih =>
      cases second with
      | nil => simp at hhead
      | cons node' rest' =>
          obtain rfl : node = node' := by simpa using hhead
          have hnext : rest.head? = rest'.head? := by
            simpa using hfirst.1.symm.trans hsecond.1
          rw [ih hfirst.2 hsecond.2 hnext]

/-- A terminated chain never visits a node twice: the second visit would be
followed by the same nodes as the first. -/
theorem Chain.nodup {nodes : List α} (hchain : Chain next nodes none) : nodes.Nodup := by
  induction nodes with
  | nil => exact List.nodup_nil
  | cons node rest ih =>
      refine List.nodup_cons.mpr ⟨?_, ih hchain.2⟩
      intro hmem
      obtain ⟨before, after, rfl⟩ := List.append_of_mem hmem
      have htail : Chain next (node :: after) none :=
        (chain_append.mp hchain.2).2
      have heq := htail.unique hchain rfl
      have hlength := congrArg List.length heq
      simp only [List.length_cons, List.length_append] at hlength
      omega

theorem Chain.next_of_split {before after : List α} {node : α}
    (hchain : Chain next (before ++ node :: after) none) : next node = after.head? := by
  simpa using (chain_append.mp hchain).2.1

/-- The backward field at a node of a doubly linked list points to its predecessor. -/
theorem Chain.prev_of_split {before after : List α} {node : α}
    (hchain : Chain next (before ++ node :: after).reverse none) :
    next node = before.getLast? := by
  rw [List.reverse_append, List.reverse_cons, List.append_assoc] at hchain
  simpa using hchain.next_of_split

/-- The nodes visited by following the field, at most `fuel` of them. -/
def follow (next : α → Option α) : Nat → Option α → List α
  | 0, _ => []
  | _ + 1, none => []
  | fuel + 1, some node => node :: follow next fuel (next node)

theorem Chain.follow_eq {nodes : List α} {fuel : Nat} (hchain : Chain next nodes none)
    (hfuel : nodes.length ≤ fuel) : follow next fuel nodes.head? = nodes := by
  induction nodes generalizing fuel with
  | nil => cases fuel <;> rfl
  | cons node rest ih =>
      cases fuel with
      | zero => simp at hfuel
      | succ fuel =>
          have hnext : next node = rest.head? := by simpa using hchain.1
          have hrest : rest.length ≤ fuel := by simpa using hfuel
          rw [List.head?_cons, follow, hnext, ih hchain.2 hrest]

end Wnet.Foundation
