import FirmwareUpdate.Bytes
import FirmwareUpdate.Cause

/-!
# The key-value store

Durable bytes under a key inside a namespace. The store can be told to refuse reads or writes. It
counts erasures, also those of a key that holds nothing.
-/

namespace FirmwareUpdate

structure Place where
  space : String
  key : String
  deriving DecidableEq, Repr

namespace Place

def path (p : Place) : String := p.space ++ "/" ++ p.key

def jobId : Place := ⟨"ota_job", "job_id"⟩

def config : Place := ⟨"ota_cfg", "config"⟩

end Place

structure Store where
  entries : List (Place × Bytes)
  erased : List Place
  failReads : Bool
  failWrites : Bool
  deriving DecidableEq, Repr

namespace Store

def empty : Store := ⟨[], [], false, false⟩

/-- What a place holds, whether reads fail or not. -/
def raw (s : Store) (p : Place) : Option Bytes := s.entries.lookup p

def get (s : Store) (p : Place) : Except Cause (Option Bytes) :=
  if s.failReads then .error (.of s!"read of {p.path} failed") else .ok (s.raw p)

def put (s : Store) (p : Place) (bs : Bytes) : Store :=
  { s with entries := (p, bs) :: s.entries.filter (·.1 != p) }

def set (s : Store) (p : Place) (bs : Bytes) : Except Cause Unit × Store :=
  if s.failWrites then (.error (.of s!"write of {p.path} failed"), s) else (.ok (), s.put p bs)

def erase (s : Store) (p : Place) : Store :=
  { s with entries := s.entries.filter (·.1 != p), erased := p :: s.erased }

def eraseCount (s : Store) (p : Place) : Nat := s.erased.count p

theorem lookup_filter_ne {κ β : Type} [DecidableEq κ] (p q : κ) (es : List (κ × β)) :
    (es.filter (·.1 != p)).lookup q = if q = p then none else es.lookup q := by
  induction es with
  | nil => simp
  | cons e es ih =>
    obtain ⟨k, bs⟩ := e
    by_cases hk : k = p
    · subst hk
      by_cases hq : q = k
      · subst hq; simpa using ih
      · have : (q == k) = false := by simpa using hq
        simp only [bne_self_eq_false, Bool.false_eq_true, not_false_eq_true, List.filter_cons_of_neg,
          List.lookup_cons, this, ih, hq, if_false]
    · have hne : (k != p) = true := by simpa using hk
      simp only [List.filter_cons, hne, if_true, List.lookup_cons, ih]
      by_cases hq : q = k
      · subst hq; simp [hk]
      · have : (q == k) = false := by simpa using hq
        simp [this]

theorem raw_put (s : Store) (p q : Place) (bs : Bytes) :
    (s.put p bs).raw q = if q = p then some bs else s.raw q := by
  simp only [raw, put, List.lookup_cons, lookup_filter_ne]
  by_cases h : q = p
  · simp [h]
  · have : (q == p) = false := by simpa using h
    simp [this, h]

theorem raw_erase (s : Store) (p q : Place) :
    (s.erase p).raw q = if q = p then none else s.raw q :=
  lookup_filter_ne p q s.entries

/-! ## Reading and writing with context -/

def read (s : Store) (p : Place) : Except Cause (Option Bytes) :=
  (s.get p).mapError (Cause.within s!"read {p.path}")

def write (s : Store) (p : Place) (bs : Bytes) : Except Cause Unit × Store :=
  let (r, s) := s.set p bs
  (r.mapError (Cause.within s!"write {p.path}"), s)

section
variable {s : Store} (p : Place) (bs : Bytes)

theorem read_refused (h : s.failReads = true) :
    s.read p = .error (Cause.within s!"read {p.path}" (.of s!"read of {p.path} failed")) := by
  unfold read get
  rw [if_pos h]
  rfl

theorem read_raw (h : s.failReads = false) : s.read p = .ok (s.raw p) := by
  unfold read get
  rw [if_neg (by simp [h])]
  rfl

theorem write_refused (h : s.failWrites = true) : s.write p bs =
    (.error (Cause.within s!"write {p.path}" (.of s!"write of {p.path} failed")), s) := by
  unfold write set
  rw [if_pos h]
  rfl

theorem write_put (h : s.failWrites = false) : s.write p bs = (.ok (), s.put p bs) := by
  unfold write set
  rw [if_neg (by simp [h])]
  rfl

end

def readJson (decode : Bytes → Option α) (s : Store) (p : Place) : Except Cause (Option α) :=
  match s.read p with
  | .error c => .error c
  | .ok none => .ok none
  | .ok (some bs) =>
    match decode bs with
    | some a => .ok (some a)
    | none => .error (.of s!"{p.path} is not valid JSON: no value of the expected shape")

/-- The job id that stored bytes stand for. No bytes at all are no id. -/
def jobIdOf : Option Bytes → Except Cause (Option String)
  | none => .ok none
  | some [] => .ok none
  | some bs =>
    match Bytes.text? bs with
    | some id => .ok (some id)
    | none => .error (Cause.within "persisted job id is not UTF-8" (.of "malformed byte sequence"))

def loadJobId (s : Store) : Except Cause (Option String) :=
  match s.read .jobId with
  | .ok bs => jobIdOf bs
  | .error c => .error c

end Store

end FirmwareUpdate
