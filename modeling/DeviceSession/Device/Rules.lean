import DeviceSession.Device.Emulator

/-
  Devices that answer by rules.

  A rule holds replies for the commands with one INS byte,
  or for all.  The first rule that matches and has replies
  left gives its first reply.  The last reply of a rule is
  kept for later commands, unless it is meant once only.
  Without a rule a device echoes the payload.

  Key definitions include:
    * `RuleAction`
    * `RuleReply`
    * `Rule`
    * `Rule.handler`
-/

------------------------------------------------------------
-- Rules
------------------------------------------------------------

namespace DeviceSession

/- What a reply does with its response. -/
inductive RuleAction where
  | respond
  | respondAfter (delay : Nat)
  | respondThenDrop
  | drop
  | ignore
  | frames (fs : List (List UInt8))
  /- Cut the response into frames of a size, and send some
     of them, by position. -/
  | pickFrames (mtu : Nat) (keep : List Nat)
deriving DecidableEq

structure RuleReply where
  action : RuleAction
  /- The response, if it is not the echo. -/
  response : Option Response := none
  once : Bool := false
  /- What changes before the reply. -/
  control : PipeChange := {}
  /- How many of the next writes on the link fail. -/
  failWrites : Option Nat := none
deriving DecidableEq

structure Rule where
  /- The INS byte that the rule is for, or none for all. -/
  ins : Option UInt8
  replies : List RuleReply
deriving DecidableEq

------------------------------------------------------------
-- Answering
------------------------------------------------------------

/- Success, with the payload of the command. -/
def Response.echo (a : Apdu) : Response :=
  { status := .success, data := a.data }

namespace RuleReply

/- The frames of a response at the given positions. -/
def pick
    (p : Profile)
    (mtu : Nat)
    (keep : List Nat)
    (r : Response) : List (List UInt8) :=
  let frames := do
    let s ← Slicer.ofMtu p mtu
    let x ← s.message r.encode
    return x.toList
  match frames with
  | .ok fs => keep.filterMap fun i => fs[i]?
  | .error _ => []

/- The reply to a command. -/
def toReply (p : Profile) (x : RuleReply) (a : Apdu) :
    Reply :=
  let r := x.response.getD (.echo a)
  match x.action with
  | .respond => .respond r
  | .respondAfter delay => .respondAfter delay r
  | .respondThenDrop => .respondThenDrop r
  | .drop => .drop
  | .ignore => .ignore
  | .frames fs => .frames fs
  | .pickFrames mtu keep => .frames (pick p mtu keep r)

/- Make the changes that come before the reply. -/
def prepare (x : RuleReply) (link : Nat) (hub : PipeHub) :
    PipeHub :=
  let hub := hub.control x.control
  match x.failWrites with
  | some n => hub.modify link fun l => { l with failWrites := n }
  | none => hub

end RuleReply

namespace Rule

/- Whether a rule has a reply to a command. -/
def applies (r : Rule) (a : Apdu) : Bool :=
  r.ins.all (· == a.ins) && !r.replies.isEmpty

/- The first reply of a rule, and the rule after it. -/
def use? (r : Rule) : Option (RuleReply × Rule) :=
  match r.replies with
  | [] => none
  | [x] =>
      some (x, if x.once then { r with replies := [] } else r)
  | x :: rest => some (x, { r with replies := rest })

/- The reply to a command, and the rules after it. -/
def answer? (a : Apdu) :
    List Rule → Option (RuleReply × List Rule)
  | [] => none
  | r :: rest =>
      if r.applies a then
        r.use?.map fun (x, r') => (x, r' :: rest)
      else
        (answer? a rest).map fun (x, rest') => (x, r :: rest')

/- A device that answers by rules. -/
def handler (p : Profile) : Handler (List Rule) where
  handle := fun a link rules hub =>
    match answer? a rules with
    | some (x, rules) =>
        (x.toReply p a, rules, x.prepare link hub)
    | none => (.respond (.echo a), rules, hub)

end Rule

end DeviceSession
