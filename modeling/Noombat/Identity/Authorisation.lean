import Noombat.Federation.Database

/-!
# Relationships

The standing of one actor towards another, on two axes that are independent of each other,
and the posts that it admits them to.
-/

namespace Authorisation

open Federation (Uuid Visibility)

inductive FollowStatus where
  | accepted
  | pending
  | none
  deriving DecidableEq

/-- Undirected: who invited whom makes no difference to what is admitted. -/
inductive ConnectionState where
  | accepted
  | pending
  | none
  deriving DecidableEq

structure Relationship where
  follow : FollowStatus
  connection : ConnectionState
  deriving DecidableEq

namespace Relationship

/-- A stranger, or an anonymous viewer. -/
def NONE : Relationship :=
  ⟨.none, .none⟩

/-- An accepted connection is admitted wherever followers are. -/
def isFollower (r : Relationship) : Bool :=
  r.follow == .accepted || r.connection == .accepted

def isConnection (r : Relationship) : Bool :=
  r.connection == .accepted

end Relationship

/-- Whether a post is visible to a viewer. -/
def postVisibleTo (visibility : Visibility) (viewer : Option Uuid) (authorId : Uuid)
    (relationship : Relationship) : Bool :=
  if viewer == some authorId then true
  else
    match visibility with
    | .public | .unlisted => true
    | .followers => relationship.isFollower
    | .connections => relationship.isConnection

section PostVisibleTo

variable {viewerId authorId : Uuid}

theorem postVisibleTo_author (visibility : Visibility) (authorId : Uuid) (r : Relationship) :
  postVisibleTo visibility (some authorId) authorId r = true
  := by
  simp [postVisibleTo]

theorem postVisibleTo_followers (h : viewerId ≠ authorId) (r : Relationship) :
  postVisibleTo .followers (some viewerId) authorId r = r.isFollower
  := by
  simp [postVisibleTo, h]

theorem postVisibleTo_connections (h : viewerId ≠ authorId) (r : Relationship) :
  postVisibleTo .connections (some viewerId) authorId r = r.isConnection
  := by
  simp [postVisibleTo, h]

end PostVisibleTo

end Authorisation
