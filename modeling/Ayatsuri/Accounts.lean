import Ayatsuri.TransitionSystem

/-! The auth service over its stores of users, API keys and webhooks. A store keeps
every record in a file of its own and hands records out through a file cache:
what a call edits is the object the cache holds. -/
namespace Ayatsuri.Accounts
open List Option

/-- `Role`; `other` is any text that is not one of the known roles. -/
inductive Role
  | admin | manager | developer | operator | viewer
  | other (text : String)
deriving DecidableEq

def Role.valid : Role → Bool
  | .other _ => false
  | _ => true

structure User where
  (id username passwordHash : String)
  role : Role
  isDisabled : Bool := false
  updatedAt : ℕ := 0
deriving DecidableEq

structure APIKey where
  (id name description : String)
  role : Role
  (keyHash keyPrefix : String)
  updatedAt : ℕ
  lastUsedAt : Option ℕ := none
deriving DecidableEq

structure Webhook where
  (id dagName tokenHash tokenPrefix : String)
  enabled : Bool := true
  updatedAt : ℕ
  lastUsedAt : Option ℕ := none
deriving DecidableEq

inductive Error
  | notFound | alreadyExists | invalidID | invalidName | write | invalidRole | weakPassword | hash
  | passwordMismatch | cannotDeleteSelf | invalidCreatorID | invalidCredentials | userDisabled
  | invalidToken | invalidAPIKey | invalidWebhookToken | webhookDisabled
deriving DecidableEq

/-! ### The bodies of the calls that change a record -/

inductive UserEdit
  | username (v : String)
  | role (v : Role)
  | passwordHash (v : String)
  | isDisabled (v : Bool)
  | updatedAt (v : ℕ)

def UserEdit.apply : UserEdit → User → User
  | .username v, u => {u with username := v}
  | .role v, u => {u with role := v}
  | .passwordHash v, u => {u with passwordHash := v}
  | .isDisabled v, u => {u with isDisabled := v}
  | .updatedAt v, u => {u with updatedAt := v}

inductive APIKeyEdit
  | name (v : String)
  | description (v : String)
  | role (v : Role)
  | updatedAt (v : ℕ)

def APIKeyEdit.apply : APIKeyEdit → APIKey → APIKey
  | .name v, k => {k with name := v}
  | .description v, k => {k with description := v}
  | .role v, k => {k with role := v}
  | .updatedAt v, k => {k with updatedAt := v}

inductive WebhookEdit
  | tokenHash (v : String)
  | tokenPrefix (v : String)
  | enabled (v : Bool)
  | updatedAt (v : ℕ)

def WebhookEdit.apply : WebhookEdit → Webhook → Webhook
  | .tokenHash v, w => {w with tokenHash := v}
  | .tokenPrefix v, w => {w with tokenPrefix := v}
  | .enabled v, w => {w with enabled := v}
  | .updatedAt v, w => {w with updatedAt := v}

/-- A statement of a call between its read of the record and `Update`. -/
inductive Op (R E : Type)
  | edit (e : E)
  | check (ok : R → Bool) (error : Error)

structure UpdateUserInput where
  username : Option String := none
  role : Option Role := none
  password : Option String := none
  isDisabled : Option Bool := none

structure UpdateAPIKeyInput where
  name : Option String := none
  description : Option String := none
  role : Option Role := none

def minPasswordLength : ℕ := 8

/-- `validatePassword`, then the hash, which bcrypt may refuse to make, then the assignment. -/
def setPassword (password : String) (hash : Option String) : List (Op User UserEdit) :=
  [.check (fun _ => minPasswordLength ≤ password.utf8ByteSize) .weakPassword, .check (fun _ => hash.isSome) .hash,
    .edit (.passwordHash (hash.getD ""))]

def given (field : Option String) : Option String := field.filter fun v => v ≠ ""

def updateUser (input : UpdateUserInput) (hash : Option String) (now : ℕ) : List (Op User UserEdit) :=
  ((given input.username).elim [] fun v => [.edit (.username v)]) ++
    (input.role.elim [] fun v => [.check (fun _ => v.valid) .invalidRole, .edit (.role v)]) ++
    ((given input.password).elim [] fun v => setPassword v hash) ++
    (input.isDisabled.elim [] fun v => [.edit (.isDisabled v)])++[.edit (.updatedAt now)]

/-- `compare` is bcrypt's comparison of a hash with a text. -/
def changePassword (compare : String → String → Bool) (oldPassword newPassword : String) (hash : Option String) (now : ℕ) :
    List (Op User UserEdit) :=
  .check (fun u => compare u.passwordHash oldPassword) .passwordMismatch::setPassword newPassword hash ++
    [.edit (.updatedAt now)]

def resetPassword (newPassword : String) (hash : Option String) (now : ℕ) : List (Op User UserEdit) :=
  setPassword newPassword hash++[.edit (.updatedAt now)]

def updateAPIKey (input : UpdateAPIKeyInput) (now : ℕ) : List (Op APIKey APIKeyEdit) :=
  ((given input.name).elim [] fun v => [.edit (.name v)]) ++
    (input.description.elim [] fun v => [.edit (.description v)]) ++
    (input.role.elim [] fun v => [.check (fun _ => v.valid) .invalidRole, .edit (.role v)])++[.edit (.updatedAt now)]

def toggleWebhook (enabled : Bool) (now : ℕ) : List (Op Webhook WebhookEdit) :=
  [.edit (.enabled enabled), .edit (.updatedAt now)]

/-- `token` is the hash and the prefix of the generated token, if one could be made. -/
def regenerateWebhookToken (token : Option (String × String)) (now : ℕ) : List (Op Webhook WebhookEdit) :=
  [.check (fun _ => token.isSome) .hash, .edit (.tokenHash (token.getD ("", "")).1),
    .edit (.tokenPrefix (token.getD ("", "")).2), .edit (.updatedAt now)]

/-! ### A store with its file cache -/

/-- What the three stores differ in. `size` is the length of the file that holds a record. -/
structure Kind (R E : Type) where
  id : R → String
  name : R → String
  size : R → ℕ
  edit : E → R → R
  used : ℕ → R → R
  /-- `Update` and `Delete` remove the file's cache entry. -/
  invalidates : Bool
  /-- `Update` changes the index of names before it writes, and back when the write fails. -/
  indexFirst : Bool
  id_edit : ∀ e r, id (edit e r) = id r
  key_used : ∀ n r, id (used n r) = id r ∧ name (used n r) = name r

variable (R : Type)

structure File where
  data : R
  modTime : ℕ

/-- An entry of the cache: the object, and what `Stat` said of the file it was loaded from. -/
structure Entry where
  (ref size lastModified : ℕ)

/-- The directory of a store, whose files are named after the IDs, and the index of names. `byID` has the IDs that have
a file; `issued` lists every ID that has had one. -/
structure Disk where
  byName : String → Option String
  files : String → Option (File R)
  issued : List String

structure Store where
  disk : Disk R
  cache : String → Option Entry := fun _ => none
  heap : List R := []

def put {α : Type} (m : String → Option α) (k : String) (v : Option α) : String → Option α :=
  fun x => if x = k then v else m x

section
variable {R E : Type} (K : Kind R E)

def Kind.isStale (e : Entry) (f : File R) : Bool := e.lastModified < f.modTime || e.size ≠ K.size f.data

variable (s : Store R) (id : String)

/-- `LoadLatest`: the object the cache holds, or a new one that the cache then holds. -/
def Store.loadLatest (f : File R) : ℕ × R × Store R :=
  match (s.cache id).filter fun e => !K.isStale e f with
  | some e => (e.ref, (s.heap[e.ref]?).getD f.data, s)
  | none => (s.heap.length, f.data, {s with
      heap := s.heap++[f.data]
      cache := put s.cache id (some ⟨s.heap.length, K.size f.data, f.modTime⟩)})

def Store.getByID : Except Error (ℕ × R) × Store R :=
  if id = "" then (.error .invalidID, s)
  else match s.disk.files id with
    | none => (.error .notFound, s)
    | some f =>
      let found := s.loadLatest K id f
      (.ok (found.1, found.2.1), found.2.2)

/-- `GetByUsername` and `GetByDAGName`. -/
def Store.getByName (name : String) : Except Error (ℕ × R) × Store R :=
  if name = "" then (.error .invalidName, s)
  else match s.disk.byName name with
    | none => (.error .notFound, s)
    | some id => s.getByID K id

/-- `order` is the order in which the map of IDs is gone through. -/
def Store.list (s : Store R) : List String → Except Error (List R) × Store R
  | [] => (.ok [], s)
  | id::order =>
    match s.getByID K id with
    | (.ok (_, r), s) => (((s.list order).1).map (r :: ·), (s.list order).2)
    | (.error .notFound, s) => s.list order
    | (.error e, s) => (.error e, s)

def Kind.perform : List (Op R E) → R → Option Error × R
  | [], r => (none, r)
  | .edit e::ops, r => Kind.perform ops (K.edit e r)
  | .check ok error::ops, r => if ok r then Kind.perform ops r else (some error, r)

def Disk.save (d : Disk R) (existing r : R) (now : ℕ) : Disk R :=
  {d with
    files := put d.files (K.id r) (some ⟨r, now⟩)
    byName := if K.name existing = K.name r then d.byName
      else put (put d.byName (K.name existing) none) (K.name r) (some (K.id r))}

def Store.invalidate : Store R := if K.invalidates then {s with cache := put s.cache id none} else s

/-- `Update`; `fails` says that the write fails. -/
def Store.update (r : R) (now : ℕ) (fails : Bool) : Option Error × Store R :=
  if K.id r = "" then (some .invalidID, s)
  else if K.name r = "" then (some .invalidName, s)
  else match s.disk.files (K.id r) with
    | none => (some .notFound, s)
    | some existing =>
      if K.name existing.data ≠ K.name r ∧ (s.disk.byName (K.name r)).any fun other => other ≠ K.id r then
        (some .alreadyExists, s)
      else if fails then
        (some .write, { s with disk := {s.disk with
          byName := if K.indexFirst ∧ K.name existing.data ≠ K.name r then
              put (put s.disk.byName (K.name r) none) (K.name existing.data) (some (K.id r))
            else s.disk.byName}})
      else (none, ({s with disk := s.disk.save K existing.data r now} : Store R).invalidate K (K.id r))

/-- A call that changes a record: its statements on the object it was handed, then `Update`. -/
def Store.change (found : Except Error (ℕ × R) × Store R) (ops : List (Op R E)) (now : ℕ) (fails : Bool) :
    Except Error R × Store R :=
  match found with
  | (.error e, s) => (.error e, s)
  | (.ok (ref, r), s) =>
    let done := K.perform ops r
    let s := {s with heap := s.heap.set ref done.2}
    match done.1 with
    | some e => (.error e, s)
    | none =>
      match s.update K done.2 now fails with
      | (some e, s) => (.error e, s)
      | (none, s) => (.ok done.2, s)

/-- `Create`. The IDs are new UUIDs, so one that has been used is refused. -/
def Store.create (r : R) (now : ℕ) (fails : Bool) : Except Error R × Store R :=
  if K.id r = "" then (.error .invalidID, s)
  else if K.name r = "" then (.error .invalidName, s)
  else if (s.disk.byName (K.name r)).isSome ∨ K.id r ∈ s.disk.issued then (.error .alreadyExists, s)
  else if fails then (.error .write, s)
  else (.ok r, { s with disk := {
    byName := put s.disk.byName (K.name r) (some (K.id r))
    files := put s.disk.files (K.id r) (some ⟨r, now⟩)
    issued := K.id r::s.disk.issued}})

def Store.delete (fails : Bool) : Except Error Unit × Store R :=
  if id = "" then (.error .invalidID, s)
  else match s.disk.files id with
    | none => (.error .notFound, s)
    | some f =>
      if fails then (.error .write, s)
      else (.ok (), ({ s with disk := {s.disk with
        byName := put s.disk.byName (K.name f.data) none
        files := put s.disk.files id none}} : Store R).invalidate K id)

/-- `UpdateLastUsed` loads the file itself, not through the cache. -/
def Store.updateLastUsed (now : ℕ) (fails : Bool) : Store R :=
  match s.disk.files id with
  | none => s
  | some f =>
    if fails then s
    else {s with
      disk := {s.disk with files := put s.disk.files id (some ⟨K.used now f.data, now⟩)}
      cache := put s.cache id none}

def Store.expire (ids : List String) : Store R :=
  {s with cache := fun id => if id ∈ ids then none else s.cache id}

end

open Store

/-! ### Coherent stores -/

section
variable {R E : Type} {K : Kind R E}

def Disk.WellFormed (K : Kind R E) (d : Disk R) : Prop :=
  ∀ id f, d.files id = some f → K.id f.data = id ∧ K.name f.data ≠ "" ∧ id ∈ d.issued

structure Store.Coherent (K : Kind R E) (s : Store R) : Prop where
  wf : s.disk.WellFormed K
  synced : ∀ id e, s.cache id = some e → id ∈ s.disk.issued ∧ ∃ r, s.heap[e.ref]? = some r ∧
    ∀ f, s.disk.files id = some f → f.data = r
  apart : ∀ i j e e', s.cache i = some e → s.cache j = some e' → e.ref = e'.ref → i = j

def Disk.find (d : Disk R) (id : String) : Except Error R :=
  if id = "" then .error .invalidID
  else match d.files id with
    | none => .error .notFound
    | some f => .ok f.data

def Disk.change (K : Kind R E) (d : Disk R) (id : String) (ops : List (Op R E)) (now : ℕ) : Except Error R × Disk R :=
  match d.find id with
  | .error e => (.error e, d)
  | .ok r =>
    match K.perform ops r with
    | (some e, _) => (.error e, d)
    | (none, r') => (.ok r', d.save K r r' now)

variable {k x : String} {α : Type}

lemma put_eq_some {m : String → Option α} {v y} (h : put m k v x = some y) :
    x = k ∧ v = some y ∨ x ≠ k ∧ m x = some y := by
  unfold put at h
  split_ifs at h with hx
  · exact .inl ⟨hx, h⟩
  · exact .inr ⟨hx, h⟩

lemma put_none_eq_some {m : String → Option α} {y} (h : put m k none x = some y) : x ≠ k ∧ m x = some y := by
  rcases put_eq_some h with ⟨-, h⟩ | h
  · cases h
  · exact h

@[simp] lemma put_self (m : String → Option α) (k : String) (v : Option α) : put m k v k = v := if_pos rfl

variable {s : Store R}

lemma Store.Coherent.redisk (h : s.Coherent K) {d : Disk R} {cache : String → Option Entry} (hwf : d.WellFormed K)
    (hissued : s.disk.issued ⊆ d.issued)
    (hcache : ∀ id e, cache id = some e → s.cache id = some e ∧ ∀ f, d.files id = some f → s.disk.files id = some f) :
    Store.Coherent K ⟨d, cache, s.heap⟩ where
  wf := hwf
  synced id e he := by
    obtain ⟨hold, hfiles⟩ := hcache id e he
    obtain ⟨hid, r, hr, hdata⟩ := h.synced id e hold
    exact ⟨hissued hid, r, hr, fun f hf => hdata f (hfiles f hf)⟩
  apart i j e e' he he' := h.apart i j e e' (hcache i e he).1 (hcache j e' he').1

/-- The object at `ref` is the one the cache holds for the record with the ID. -/
structure Store.Hands (s : Store R) (id : String) (f : File R) (ref : ℕ) : Prop where
  file : s.disk.files id = some f
  object : s.heap[ref]? = some f.data
  cached : ∃ e, s.cache id = some e ∧ e.ref = ref

variable {f : File R} {id : String}

lemma Store.Coherent.load (h : s.Coherent K) (hf : s.disk.files id = some f) (size lastModified : ℕ) :
    Store.Coherent K ⟨s.disk, put s.cache id (some ⟨s.heap.length, size, lastModified⟩), s.heap++[f.data]⟩ := by
  have hlt : ∀ i e, s.cache i = some e → e.ref < s.heap.length := by
    intro i e he
    obtain ⟨-, r, hr, -⟩ := h.synced i e he
    exact (List.getElem?_eq_some_iff.mp hr).1
  refine ⟨h.wf, fun i e he => ?_, fun i j e e' he he' href => ?_⟩
  · rcases put_eq_some he with ⟨rfl, hnew⟩ | ⟨-, hold⟩
    · cases hnew
      refine ⟨(h.wf i f hf).2.2, f.data, by simp, fun g hg => ?_⟩
      rw [some_inj.mp (hf.symm.trans hg)]
    · obtain ⟨hissued, r, hr, hdata⟩ := h.synced i e hold
      exact ⟨hissued, r, by simp [getElem?_append_left (hlt i e hold), hr], hdata⟩
  rcases put_eq_some he with ⟨hi, hnew⟩ | ⟨-, hold⟩ <;> rcases put_eq_some he' with ⟨hj, hnew'⟩ | ⟨-, hold'⟩
  · exact hi.trans hj.symm
  · cases hnew
    exact absurd href (hlt j e' hold').ne'
  · obtain rfl := some_inj.mp hnew'
    exact absurd href (hlt i e hold).ne
  · exact h.apart i j e e' hold hold' href

lemma loadLatest_spec (h : s.Coherent K) (hf : s.disk.files id = some f) :
    (s.loadLatest K id f).2.2.Coherent K ∧ (s.loadLatest K id f).2.2.disk = s.disk ∧
      (s.loadLatest K id f).2.1 = f.data ∧ (s.loadLatest K id f).2.2.Hands id f (s.loadLatest K id f).1 := by
  unfold loadLatest
  cases hhit : (s.cache id).filter fun e => !K.isStale e f with
  | some e =>
    have he : s.cache id = some e := (filter_eq_some_iff.mp hhit).1
    obtain ⟨-, r, hr, hdata⟩ := h.synced id e he
    obtain rfl := hdata f hf
    exact ⟨h, rfl, by simp [hr], hf, hr, e, he, rfl⟩
  | none => exact ⟨h.load hf _ _, rfl, rfl, hf, by simp, _, put_self _ _ _, rfl⟩

lemma getByID_spec (h : s.Coherent K) (id : String) :
    (s.getByID K id).2.Coherent K ∧ (s.getByID K id).2.disk = s.disk ∧ (s.getByID K id).1.map Prod.snd = s.disk.find id ∧
      ∀ ref r, (s.getByID K id).1 = .ok (ref, r) → id ≠ "" ∧ ∃ f, f.data = r ∧ (s.getByID K id).2.Hands id f ref := by
  unfold getByID Disk.find
  by_cases hempty : id = ""
  · simp [hempty, h, Except.map]
  rw [if_neg hempty, if_neg hempty]
  cases hf : s.disk.files id with
  | none => simp [h, Except.map]
  | some f =>
    obtain ⟨hcoh, hdisk, hdata, hhands⟩ := loadLatest_spec h hf
    refine ⟨hcoh, hdisk, by simp [Except.map, hdata], fun ref r hok => ⟨hempty, f, ?_⟩⟩
    obtain ⟨rfl, rfl⟩ := Prod.mk.inj (Except.ok.inj hok)
    exact ⟨hdata.symm, hhands⟩

/-- What the body of a change leaves alone: no check fails behind an assignment, no record loses its name, and the
new name is not another record's. -/
structure Spares (K : Kind R E) (d : Disk R) (id : String) (ops : List (Op R E)) : Prop where
  failed : ∀ r e r', K.perform ops r = (some e, r') → r' = r
  named : ∀ r r', K.perform ops r = (none, r') → K.name r ≠ "" → K.name r' ≠ ""
  free : ∀ r r', K.perform ops r = (none, r') → K.name r' = K.name r ∨ ∀ other, d.byName (K.name r') = some other → other = id

lemma perform_induct {P : R → Prop} {ops} (h : ∀ e, .edit e ∈ ops → ∀ r, P r → P (K.edit e r)) {r}
    (hr : P r) : P (K.perform ops r).2 := by
  induction ops generalizing r with
  | nil => exact hr
  | cons op ops ih =>
    have hrest : ∀ e, .edit e ∈ ops → ∀ r, P r → P (K.edit e r) := fun e he => h e (mem_cons_of_mem _ he)
    cases op with
    | edit e => exact ih hrest (h e mem_cons_self r hr)
    | check ok error =>
      unfold Kind.perform
      split_ifs
      · exact ih hrest hr
      · exact hr

lemma Disk.WellFormed.put {d : Disk R} (h : d.WellFormed K) {r} (hr : K.id r = id) (hname : K.name r ≠ "")
    {now} {names : String → Option String} {issued} (hissued : id::d.issued ⊆ issued) :
    Disk.WellFormed K ⟨names, Accounts.put d.files id (some ⟨r, now⟩), issued⟩ := by
  intro i f hf
  rcases put_eq_some hf with ⟨rfl, hnew⟩ | ⟨-, hold⟩
  · cases hnew
    exact ⟨hr, hname, hissued mem_cons_self⟩
  · obtain ⟨hid, hfname, hmem⟩ := h i f hold
    exact ⟨hid, hfname, hissued (mem_cons_of_mem _ hmem)⟩

lemma Store.Coherent.invalidate (h : s.Coherent K) (id : String) : (s.invalidate K id).Coherent K := by
  unfold Store.invalidate
  split_ifs
  · exact h.redisk h.wf (fun _ hi => hi) fun i e he => ⟨(put_none_eq_some he).2, fun _ hf => hf⟩
  · exact h

lemma invalidate_disk (s : Store R) (id : String) : (s.invalidate K id).disk = s.disk := by
  unfold invalidate
  split_ifs <;> rfl

lemma Store.Coherent.write (h : s.Coherent K) {ref} (hands : s.Hands id f ref) {r}
    (hr : K.id r = id) (hname : K.name r ≠ "") (now : ℕ) :
    Store.Coherent K ⟨s.disk.save K f.data r now, s.cache, s.heap.set ref r⟩ := by
  subst hr
  obtain ⟨mine, hmine, rfl⟩ := hands.cached
  have hissued := (h.wf _ f hands.file).2.2
  refine ⟨h.wf.put rfl hname (cons_subset.mpr ⟨hissued, fun _ hi => hi⟩), fun i e he => ?_, h.apart⟩
  obtain ⟨hi, old, hold, hdata⟩ := h.synced i e he
  by_cases hid : i = K.id r
  · subst hid
    rw [show s.cache (K.id r) = some e from he] at hmine
    cases hmine
    refine ⟨hi, r, List.getElem?_set_self (List.getElem?_eq_some_iff.mp hands.object).1, fun g hg => ?_⟩
    rw [← some_inj.mp ((put_self _ _ _).symm.trans hg)]
  have hne : mine.ref ≠ e.ref := fun heq => hid (h.apart i (K.id r) e mine he hmine heq.symm)
  refine ⟨hi, old, by simpa [List.getElem?_set_ne hne] using hold, fun g hg => hdata g ?_⟩
  rcases put_eq_some hg with ⟨heq, -⟩ | ⟨-, hg⟩
  · exact absurd heq hid
  · exact hg

lemma change_spec (h : s.Coherent K) {ops} (hspares : Spares K s.disk id ops) (now : ℕ) :
    (Store.change K (s.getByID K id) ops now false).1 = (s.disk.change K id ops now).1 ∧
      (Store.change K (s.getByID K id) ops now false).2.disk = (s.disk.change K id ops now).2 ∧
      (Store.change K (s.getByID K id) ops now false).2.Coherent K := by
  obtain ⟨hcoh, hdisk, hfind, hhands⟩ := getByID_spec h id
  generalize s.getByID K id = found at hcoh hdisk hfind hhands
  obtain ⟨answer, t⟩ := found
  dsimp only at hcoh hdisk hfind hhands
  unfold Disk.change
  rw [← hfind]
  cases answer with
  | error e => exact ⟨rfl, hdisk, hcoh⟩
  | ok x =>
    obtain ⟨ref, r⟩ := x
    obtain ⟨hid, f, rfl, hands⟩ := hhands ref r rfl
    obtain ⟨hfid, hfname, -⟩ := hcoh.wf id f hands.file
    have hkeep : K.id (K.perform ops f.data).2 = id :=
      perform_induct (P := fun x => K.id x = id) (fun e _ x hx => (K.id_edit e x).trans hx) hfid
    simp only [change, Except.map]
    generalize hdone : K.perform ops f.data = done at hkeep
    obtain ⟨error, r⟩ := done
    cases error with
    | some e =>
      obtain rfl := hspares.failed _ _ _ hdone
      refine ⟨rfl, hdisk, ?_⟩
      have hsame : t.heap.set ref f.data = t.heap := by
        obtain ⟨hlt, hget⟩ := List.getElem?_eq_some_iff.mp hands.object
        exact hget ▸ set_getElem_self hlt
      simpa [hsame] using hcoh
    | none =>
      have hname := hspares.named _ _ hdone hfname
      have hrid : K.id r = id := hkeep
      have hfree : ¬ (K.name f.data ≠ K.name r ∧ (t.disk.byName (K.name r)).any fun other => other ≠ K.id r) := by
        rintro ⟨hne, hany⟩
        rcases hspares.free _ _ hdone with heq | hother
        · exact hne heq.symm
        cases hbyName : t.disk.byName (K.name r) with
        | none => simp [hbyName] at hany
        | some other =>
          have hmine := hother other (hdisk ▸ hbyName)
          simp [hbyName, hmine, hrid] at hany
      have hupdate : update K ⟨t.disk, t.cache, t.heap.set ref r⟩ r now false =
          (none, invalidate K ⟨t.disk.save K f.data r now, t.cache, t.heap.set ref r⟩ id) := by
        unfold update
        rw [if_neg (hrid ▸ hid), if_neg hname]
        simp only [hrid, hands.file]
        rw [if_neg (hrid ▸ hfree), if_neg (by simp)]
      simp only [hupdate, invalidate_disk]
      exact ⟨trivial, by rw [hdisk], (hcoh.write hands hrid hname now).invalidate id⟩

end
end Ayatsuri.Accounts
