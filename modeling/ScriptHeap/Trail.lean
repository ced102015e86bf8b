import ScriptHeap.Handle

/-! Trails: what lies along links from object to object. Links may run into a ring, so a trail is
followed for a limited number of steps; a limit of as many steps as there are objects is never felt on
links that come to an end. -/
namespace ScriptHeap

section
variable {α : Type} (look : Handle → Option α) (next : α → Option Handle)

/-- What is met from a handle on, up to a link that leads nowhere or to nothing that can be looked
at. -/
def trail : Nat → Option Handle → List (Handle × α)
  | limit + 1, some handle =>
    match look handle with
    | some item => (handle, item) :: trail limit (next item)
    | none => []
  | _, _ => []

/-- The link behind the last item of the trail. -/
def trailEnd : Nat → Option Handle → Option Handle
  | limit + 1, some handle =>
    match look handle with
    | some item => trailEnd limit (next item)
    | none => some handle
  | _, start => start

end
end ScriptHeap
