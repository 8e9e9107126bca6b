import FirmwareUpdate.Image

/-!
# The network

A transport that answers from queues. With nothing queued a GET fails and a POST is answered with
200. Every request is recorded, also those that fail.
-/

namespace FirmwareUpdate

structure Response where
  status : Nat
  body : Bytes
  deriving DecidableEq, Repr

def Response.ok (r : Response) : Bool := r.status == 200

inductive Reply where
  | answer (r : Response)
  | lost (why : String)
  deriving DecidableEq, Repr

def Reply.result : Reply → Except Cause Response
  | answer r => .ok r
  | lost why => .error (.of why)

structure Post where
  path : String
  body : Bytes
  deriving DecidableEq, Repr

structure Network where
  gets : List Reply
  postReplies : List Reply
  images : List (String × Image)
  getPaths : List String
  posts : List Post
  deriving Repr

namespace Network

def idle : Network := ⟨[], [], [], [], []⟩

def pushGet (n : Network) (r : Reply) : Network := { n with gets := n.gets ++ [r] }

def pushPost (n : Network) (count : Nat) (r : Reply) : Network :=
  { n with postReplies := n.postReplies ++ List.replicate count r }

/-- Serves an image at a place, instead of what was served there before. -/
def serve (n : Network) (url : String) (image : Image) : Network :=
  { n with images := (url, image) :: n.images.filter (·.1 != url) }

def get (n : Network) (path : String) : Except Cause Response × Network :=
  let n := { n with getPaths := n.getPaths ++ [path] }
  match n.gets with
  | [] => (.error (.of s!"no scripted response for GET {path}"), n)
  | r :: rest => (r.result, { n with gets := rest })

def post (n : Network) (path : String) (body : Bytes) : Except Cause Response × Network :=
  let n := { n with posts := n.posts ++ [Post.mk path body] }
  match n.postReplies with
  | [] => (.ok ⟨200, []⟩, n)
  | r :: rest => (r.result, { n with postReplies := rest })

def openImage (n : Network) (url : String) : Except Cause Source :=
  match n.images.lookup url with
  | some image => .ok image.source
  | none => .error (.of s!"HTTP 404 for {url}")

end Network

end FirmwareUpdate
