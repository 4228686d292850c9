import Mathlib.Algebra.BigOperators.Group.List.Basic
import StreamRelay.Stats

namespace StreamRelay.Counters

instance : Zero Counters := ⟨{}⟩

instance : Add Counters := ⟨fun a b => {
  accepted := a.accepted + b.accepted
  closed := a.closed + b.closed
  datagrams := a.datagrams + b.datagrams
  bytes := a.bytes + b.bytes
  forwardFailures := a.forwardFailures + b.forwardFailures
  readErrors := a.readErrors + b.readErrors }⟩

@[simp] theorem accepted_add (a b : Counters) : (a + b).accepted = a.accepted + b.accepted := rfl

@[simp] theorem closed_add (a b : Counters) : (a + b).closed = a.closed + b.closed := rfl

@[simp] theorem datagrams_add (a b : Counters) : (a + b).datagrams = a.datagrams + b.datagrams := rfl

@[simp] theorem bytes_add (a b : Counters) : (a + b).bytes = a.bytes + b.bytes := rfl

@[simp] theorem forwardFailures_add (a b : Counters) :
    (a + b).forwardFailures = a.forwardFailures + b.forwardFailures := rfl

@[simp] theorem readErrors_add (a b : Counters) :
    (a + b).readErrors = a.readErrors + b.readErrors := rfl

theorem ext_fields {a b : Counters} (accepted : a.accepted = b.accepted) (closed : a.closed = b.closed)
    (datagrams : a.datagrams = b.datagrams) (bytes : a.bytes = b.bytes)
    (forwardFailures : a.forwardFailures = b.forwardFailures)
    (readErrors : a.readErrors = b.readErrors) : a = b := by
  cases a
  cases b
  simp_all

instance : AddCommMonoid Counters where
  add_assoc a b c := by apply ext_fields <;> simp [Int.add_assoc]
  zero_add a := by apply ext_fields <;> exact Int.zero_add _
  add_zero a := by apply ext_fields <;> exact Int.add_zero _
  add_comm a b := by apply ext_fields <;> simp [Int.add_comm]
  nsmul := nsmulRec

theorem add_closed (c : Counters) : c + { closed := 1 } = { c with closed := c.closed + 1 } := by
  apply ext_fields <;> simp

theorem forwarded_eq_add (c : Counters) (sent : Bool) (size : Nat) :
    c.forwarded sent size = c + ({} : Counters).forwarded sent size := by
  cases sent <;> apply ext_fields <;> simp [forwarded]

end StreamRelay.Counters
