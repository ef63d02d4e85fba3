/-
# UnicoreTsi.UserCache — the user database behind the cache's getters.

`UserDb` is what the operating system knows at one moment: the passwd entries, the group entries, and
what `get_gids_4user_nc` makes of a user (it may raise: the output of `id -G` is parsed without a
guard).  `UserDb.cache` is the view the getters give of it.  A lookup of a user runs
`update_user_info` as a whole, so when the group resolution raises, every getter of that user raises.
-/
import UnicoreTsi.Runtime

set_option autoImplicit false

namespace UnicoreTsi

open UnicoreTsi.Text

/-- The fields of a passwd entry that are kept. -/
structure Passwd where
  uid : Int
  gid : Int
  home : Str
  deriving DecidableEq, Repr

/-- The passwd and group databases. -/
structure UserDb where
  getpwnam : Str → Option Passwd
  getgrnam : Str → Option Int
  getGids4userNc : Str → Int → Except PyExc (List Int)

namespace UserDb

/-- A getter of a user field: the default for an unknown user, the exception of a failed lookup. -/
def userField {α : Type} (db : UserDb) (default : α) (field : Passwd → List Int → α) (user : Str) :
    Except PyExc α :=
  match db.getpwnam user with
  | none => .ok default
  | some entry =>
      match db.getGids4userNc user entry.gid with
      | .error e => .error e
      | .ok gids => .ok (field entry gids)

/-- The getters on an unchanging database. -/
def cache (db : UserDb) : UserCache where
  getUid4user := db.userField (-1) fun entry _ => entry.uid
  getGid4user := db.userField (-1) fun entry _ => entry.gid
  getGids4user := db.userField [] fun _ gids => gids
  getHome4user := db.userField none fun entry _ => some entry.home
  getGid4group := fun group => .ok ((db.getgrnam group).getD (-1))

/-- The user is known and the lookup of his groups succeeds. -/
def Resolves (db : UserDb) (user : Str) (entry : Passwd) (gids : List Int) : Prop :=
  db.getpwnam user = some entry ∧ db.getGids4userNc user entry.gid = .ok gids

theorem userField_of_resolves {α : Type} {db : UserDb} {user : Str} {entry : Passwd}
    {gids : List Int} (h : db.Resolves user entry gids) (default : α)
    (field : Passwd → List Int → α) : db.userField default field user = .ok (field entry gids) := by
  rw [userField, h.1]
  show (match db.getGids4userNc user entry.gid with
    | .error e => Except.error e
    | .ok gids => .ok (field entry gids)) = .ok (field entry gids)
  rw [h.2]

/-- No users and no groups. -/
def empty : UserDb where
  getpwnam _ := none
  getgrnam _ := none
  getGids4userNc _ _ := .ok []

end UserDb

end UnicoreTsi
