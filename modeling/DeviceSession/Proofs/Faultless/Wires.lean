import DeviceSession.Link.Pipe

/-
  One link in good order.

  A pipe that nothing is wrong with is told by the frames in
  it, and by how many the device has taken.  All operations
  keep it in good order.

  Key definitions include:
    * `Pipe.carrying`
    * `PipeHub.single`
    * `Connector.beside`
    * `PipeHub.beside`

  Main declarations:
    * `Pipe.unread_carrying`
    * `PipeHub.onLink_single`
    * `PipeHub.write_beside`
    * `PipeHub.event_beside_cons`
-/

------------------------------------------------------------
-- Pipes in Good Order
------------------------------------------------------------

namespace DeviceSession

namespace Pipe

/-
  A pipe with frames on their way to the device and to the
  host, of which the device has taken some before.
-/
def carrying
    (down up : List (List UInt8))
    (taken : Nat) : Pipe where
  toDevice := down
  toHost := up
  written := taken + down.length
  read := taken

variable {down up : List (List UInt8)} {taken : Nat}

/- What the device has not taken yet is on the way down. -/
@[simp]
theorem unread_carrying :
    (carrying down up taken).unread = down.length :=
  Nat.add_sub_cancel_left taken down.length

/-
  The host writes behind the frames on the way down, if there
  is room for one more.
-/
theorem write_carrying
    (a : Asked)
    (frame : List UInt8) :
    (carrying down up taken).write a frame =
      if down.length < depth then
        (some (.ok ()), carrying (down ++ [frame]) up taken)
      else (none, carrying down up taken) := by
  cases a <;>
    by_cases hRoom : down.length < depth <;>
      simp [write, writeBuffer, carrying, hRoom, Nat.add_assoc]

/- The host takes the oldest of the frames on the way up. -/
@[simp]
theorem nextEvent_carrying_cons
    (a : Asked)
    (frame : List UInt8) :
    (carrying down (frame :: up) taken).nextEvent a =
      (some (.data frame), carrying down up taken) :=
  rfl

/- Where none is on the way up, the host waits. -/
@[simp]
theorem nextEvent_carrying_nil (a : Asked) :
    (carrying down [] taken).nextEvent a =
      (none, carrying down [] taken) := by
  cases a <;> rfl

/- The device takes the oldest on the way down; it is counted. -/
@[simp]
theorem recv_carrying_cons
    (a : Asked)
    (frame : List UInt8) :
    (carrying (frame :: down) up taken).recv a =
      (some (some frame), carrying down up (taken + 1)) := by
  simp only [recv, carrying, List.length_cons]
  rw [Nat.add_right_comm, Nat.add_assoc]

/- Where none is on the way down, the device waits. -/
@[simp]
theorem recv_carrying_nil (a : Asked) :
    (carrying [] up taken).recv a =
      (none, carrying [] up taken) := by
  cases a <;> rfl

/-
  The device sends behind the frames on the way up, if there
  is room for one more.
-/
theorem send_carrying
    (a : Asked)
    (frame : List UInt8) :
    (carrying down up taken).send a frame =
      if up.length < depth then
        (some (.ok ()), carrying down (up ++ [frame]) taken)
      else (none, carrying down up taken) := by
  by_cases hRoom : up.length < depth <;>
    simp [send, carrying, hRoom]

end Pipe

------------------------------------------------------------
-- A Single Link
------------------------------------------------------------

namespace PipeHub

/- The hub after link 1 has been opened. -/
def single (p : Pipe) (waiting : List Nat) : PipeHub where
  links := #[p]
  opened := 1
  waiting := waiting

variable {p : Pipe} {waiting : List Nat}

/- The one link that has been opened is the first. -/
@[simp]
theorem link_single : (single p waiting).link 1 = p :=
  rfl

/- What is done to the first link changes that one alone. -/
@[simp]
theorem onLink_single
    {R : Type}
    (f : Pipe → R × Pipe) :
    (single p waiting).onLink 1 f =
      ((f p).1, single (f p).2 waiting) := by
  simp [onLink, modify, single, link]

end PipeHub

------------------------------------------------------------
-- Something beside a World
------------------------------------------------------------

/- A connector to a world that something else goes with. -/
def Connector.beside
    {W L : Type}
    (c : Connector W L)
    (D : Type) : Connector (D × W) L where
  profile := c.profile
  handshake := c.handshake
  reach := fun a w => (c.reach a w.2).map id (w.1, ·)
  connect := fun a w => (c.connect a w.2).map id (w.1, ·)
  write := fun a l frame w =>
    (c.write a l frame w.2).map id (w.1, ·)
  event := fun a l w => (c.event a l w.2).map id (w.1, ·)
  close := fun l w => (w.1, c.close l w.2)

namespace PipeHub

/- The host's view of the links of a device that is there. -/
def beside (D : Type) : Connector (D × PipeHub) Nat :=
  (connector .ble .negotiate).beside D

section Beside

variable {D : Type} (y : D)
variable {down up : List (List UInt8)} {taken : Nat}
variable {waiting : List Nat}

/- Beside a device, a write is one on the link. -/
@[simp]
theorem write_beside
    (a : Asked)
    (frame : List UInt8) :
    (beside D).write a 1 frame
        (y, single (.carrying down up taken) waiting) =
      if down.length < Pipe.depth then
        (some (.ok ()),
          y, single (.carrying (down ++ [frame]) up taken)
            waiting)
      else
        (none, y,
          single (.carrying down up taken) waiting) := by
  simp only [beside, Connector.beside, connector,
    onLink_single, Pipe.write_carrying]
  split <;> rfl

/- So is what the host hears there, if there is something. -/
@[simp]
theorem event_beside_cons
    (a : Asked)
    (frame : List UInt8) :
    (beside D).event a 1
        (y, single (.carrying down (frame :: up) taken)
          waiting) =
      (some (.data frame),
        y, single (.carrying down up taken) waiting) := by
  simp [beside, Connector.beside, connector]

/- If there is nothing, the device is left as it is. -/
@[simp]
theorem event_beside_nil (a : Asked) :
    (beside D).event a 1
        (y, single (.carrying down [] taken) waiting) =
      (none, y, single (.carrying down [] taken) waiting) := by
  simp [beside, Connector.beside, connector]

end Beside

end PipeHub

end DeviceSession
