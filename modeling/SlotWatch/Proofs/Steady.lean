import SlotWatch.Proofs.Lasting

/-!
# SlotWatch.Proofs.Steady

Properties of the whole board, the source included.

What is `Kept` lets the source change at will, so it cannot say anything of what a source knows.
A `Steady` property can.  It has to look into each operation, but of a report it may assume what
an update checks first: that the slot is one of the kind.

It is a `Lasting` property that depends neither on the commands that are given nor on the
registrations that are called.
-/

namespace SlotWatch

namespace Switchboard

variable {σ ε : Type}

/-- What a property of boards has to satisfy to hold at every moment of a run, once it holds
at the start. -/
structure Steady (S : Source σ ε) (P : Switchboard σ ε → Prop) : Prop where
  obey {b} (invoke : Invoke σ ε) (l : Option String) (c : Command ε) : c.quiet = true → P b →
    P (b.obey S invoke l c).2
  report {b slot p} : p.kind ≠ .iccAccount → b.registry.validateSlot p.kind slot = .ok () →
    P b → P (b.report S slot p).2
  launch {b} (kind : Kind) (slot : Slot) (p : Payload) : P b → P (b.launch S kind slot p)
  comeTo {b} (r : Registration) (rs : List Registration) : P b → P (b.comeTo r rs).2
  hand {b} (r : Registration) (p : Payload) : P b → P (b.hand r p).2
  land {b} : P b → P b.land
  remark {b} (l : Option String) (c : Command ε) (o : Outcome σ) : P b → P (b.note (.did l c o))

namespace Steady

variable {S : Source σ ε} {P : Switchboard σ ε → Prop}

/-- A property of boards alone lasts whatever the commands are. -/
theorem lasting (k : Steady S P) : Lasting S (fun _ => True) (fun _ => True) P where
  live _ _ := trivial
  obey invoke l c hc _ hb := k.obey invoke l c hc hb
  report hkind hslot _ hb := k.report hkind hslot hb
  tell hkind hslot _ _ hb := k.launch _ _ _ (k.report hkind hslot hb)
  launch slot _ hb := k.launch _ slot _ hb
  skip rs _ _ hb := k.comeTo _ rs hb
  call rs p _ _ hb := k.hand _ p (k.comeTo _ rs hb)
  land hb := k.land hb
  remark l c o hb := k.remark l c o hb

/-- **A steady property holds at every moment of a run.** -/
theorem moment (k : Steady S P) {react : React σ ε} {limit : Nat} {cs : List (Command ε)}
    {b m : Switchboard σ ε} (h : Moment S react limit cs b m) (hb : P b) : P m :=
  k.lasting.moment (fun _ _ _ _ _ => trivial) (fun _ _ => trivial) h hb

end Steady

end Switchboard

end SlotWatch
