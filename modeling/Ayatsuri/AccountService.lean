import Ayatsuri.Accounts

/-! The calls of the auth service, one after the other, over three stores with
file caches, and what a call that fails leaves behind. -/
namespace Ayatsuri.Accounts
open List

structure Config where
  compare : String → String → Bool
  userSize : User → ℕ
  keySize : APIKey → ℕ
  webhookSize : Webhook → ℕ

variable (cfg : Config)

def Config.users : Kind User UserEdit where
  id := User.id
  name := User.username
  size := cfg.userSize
  edit := UserEdit.apply
  used _ u := u
  invalidates := false
  indexFirst := true
  id_edit e _ := by cases e <;> rfl
  key_used _ _ := ⟨rfl, rfl⟩

def Config.keys : Kind APIKey APIKeyEdit where
  id := APIKey.id
  name := APIKey.name
  size := cfg.keySize
  edit := APIKeyEdit.apply
  used now k := {k with lastUsedAt := some now}
  invalidates := true
  indexFirst := false
  id_edit e _ := by cases e <;> rfl
  key_used _ _ := ⟨rfl, rfl⟩

def Config.webhooks : Kind Webhook WebhookEdit where
  id := Webhook.id
  name := Webhook.dagName
  size := cfg.webhookSize
  edit := WebhookEdit.apply
  used now w := {w with lastUsedAt := some now}
  invalidates := true
  indexFirst := false
  id_edit e _ := by cases e <;> rfl
  key_used _ _ := ⟨rfl, rfl⟩

structure Service where
  users : Store User
  keys : Store APIKey
  webhooks : Store Webhook

inductive Call
  | updateUser (id : String) (input : UpdateUserInput) (hash : Option String)
  | changePassword (id oldPassword newPassword : String) (hash : Option String)
  | resetPassword (id newPassword : String) (hash : Option String)
  | updateAPIKey (id : String) (input : UpdateAPIKeyInput)
  | toggleWebhook (dagName : String) (enabled : Bool)
  | regenerateWebhookToken (dagName : String) (token : Option (String × String))
  | createUser (id username password : String) (role : Role) (hash : Option String)
  | deleteUser (id currentUserID : String)
  | getUser (id : String)
  | listUsers (order : List String)
  | authenticate (username password : String)
  | getUserFromToken (claims : Except Error String)
  | createAPIKey (id name description : String) (role : Role) (creatorID : String) (key : Option (String × String))
  | deleteAPIKey (id : String)
  | getAPIKey (id : String)
  | listAPIKeys (order : List String)
  | validateAPIKey (keySecret : String) (order : List String)
  | createWebhook (id dagName creatorID : String) (token : Option (String × String))
  | deleteWebhook (dagName : String)
  | getWebhookByDAGName (dagName : String)
  | listWebhooks (order : List String)
  | validateWebhookToken (dagName token : String)

structure Request where
  call : Call
  now : ℕ := 0
  fails : Bool := false

inductive Reply
  | done
  | user (u : User)
  | key (k : APIKey)
  | webhook (w : Webhook)
  | users (l : List User)
  | keys (l : List APIKey)
  | webhooks (l : List Webhook)

abbrev Answer := Except Error Reply

def apiKeyPrefix : String := "ayatsuri_"

def apiKeyPrefixLength : ℕ := 8

def webhookTokenPrefix : String := "ayatsuri_wh_"

section
variable {R E : Type} (K : Kind R E)

def Store.read (found : Except Error (ℕ × R) × Store R) : Except Error R × Store R := (found.1.map Prod.snd, found.2)

def Store.deleteByName (s : Store R) (name : String) (fails : Bool) : Except Error Unit × Store R :=
  if name = "" then (.error .invalidName, s)
  else match s.disk.byName name with
    | none => (.error .notFound, s)
    | some id => s.delete K id fails

end

def Service.onUsers {α : Type} (s : Service) (f : α → Answer) (x : Except Error α × Store User) : Answer × Service :=
  (x.1.bind f, {s with users := x.2})

def Service.onKeys {α : Type} (s : Service) (f : α → Answer) (x : Except Error α × Store APIKey) : Answer × Service :=
  (x.1.bind f, {s with keys := x.2})

def Service.onWebhooks {α : Type} (s : Service) (f : α → Answer) (x : Except Error α × Store Webhook) : Answer × Service :=
  (x.1.bind f, {s with webhooks := x.2})

def matchingKey (keySecret : String) (keys : List APIKey) : Option APIKey :=
  keys.find? fun k => k.keyPrefix = String.ofList (keySecret.toList.take apiKeyPrefixLength) ∧ cfg.compare k.keyHash keySecret

/-- What the checks of `ValidateWebhookToken` answer for a webhook that was found. -/
def checkWebhook (token : String) (w : Webhook) : Except Error Webhook :=
  if !cfg.compare w.tokenHash token then .error .invalidWebhookToken
  else if !w.enabled then .error .webhookDisabled
  else .ok w

def Service.call (cfg : Config) (s : Service) (r : Request) : Answer × Service :=
  match r.call with
  | .updateUser id input hash =>
    s.onUsers (.ok ∘ .user) (Store.change cfg.users (s.users.getByID cfg.users id) (updateUser input hash r.now) r.now r.fails)
  | .changePassword id oldPassword newPassword hash =>
    s.onUsers (fun _ => .ok .done) (Store.change cfg.users (s.users.getByID cfg.users id)
      (changePassword cfg.compare oldPassword newPassword hash r.now) r.now r.fails)
  | .resetPassword id newPassword hash =>
    s.onUsers (fun _ => .ok .done)
      (Store.change cfg.users (s.users.getByID cfg.users id) (resetPassword newPassword hash r.now) r.now r.fails)
  | .updateAPIKey id input =>
    s.onKeys (.ok ∘ .key) (Store.change cfg.keys (s.keys.getByID cfg.keys id) (updateAPIKey input r.now) r.now r.fails)
  | .toggleWebhook dagName enabled =>
    s.onWebhooks (.ok ∘ .webhook)
      (Store.change cfg.webhooks (s.webhooks.getByName cfg.webhooks dagName) (toggleWebhook enabled r.now) r.now r.fails)
  | .regenerateWebhookToken dagName token =>
    s.onWebhooks (.ok ∘ .webhook) (Store.change cfg.webhooks (s.webhooks.getByName cfg.webhooks dagName)
      (regenerateWebhookToken token r.now) r.now r.fails)
  | .createUser id username password role hash =>
    if password.utf8ByteSize < minPasswordLength then (.error .weakPassword, s)
    else if !role.valid then (.error .invalidRole, s)
    else match hash with
      | none => (.error .hash, s)
      | some hash =>
        let u : User := ⟨id, username, hash, role, false, r.now⟩
        s.onUsers (.ok ∘ .user) (s.users.create cfg.users u r.now r.fails)
  | .deleteUser id currentUserID =>
    if id = currentUserID then (.error .cannotDeleteSelf, s)
    else s.onUsers (fun _ => .ok .done) (s.users.delete cfg.users id r.fails)
  | .getUser id => s.onUsers (.ok ∘ .user) (Store.read (s.users.getByID cfg.users id))
  | .listUsers order => s.onUsers (.ok ∘ .users) (s.users.list cfg.users order)
  | .authenticate username password =>
    let found := Store.read (s.users.getByName cfg.users username)
    match found.1 with
    | .error .notFound | .error .invalidName => (.error .invalidCredentials, {s with users := found.2})
    | _ => s.onUsers (fun u => if !cfg.compare u.passwordHash password then .error .invalidCredentials
        else if u.isDisabled then .error .userDisabled else .ok (.user u)) found
  | .getUserFromToken claims =>
    match claims with
    | .error e => (.error e, s)
    | .ok id =>
      let found := Store.read (s.users.getByID cfg.users id)
      match found.1 with
      | .error .notFound | .error .invalidID => (.error .invalidToken, {s with users := found.2})
      | _ => s.onUsers (fun u => if u.isDisabled then .error .userDisabled else .ok (.user u)) found
  | .createAPIKey id name description role creatorID key =>
    if name = "" then (.error .invalidName, s)
    else if !role.valid then (.error .invalidRole, s)
    else if creatorID = "" then (.error .invalidCreatorID, s)
    else match key with
      | none => (.error .hash, s)
      | some (keyHash, keyPrefix) =>
        let k : APIKey := ⟨id, name, description, role, keyHash, keyPrefix, r.now, none⟩
        s.onKeys (.ok ∘ .key) (s.keys.create cfg.keys k r.now r.fails)
  | .deleteAPIKey id => s.onKeys (fun _ => .ok .done) (s.keys.delete cfg.keys id r.fails)
  | .getAPIKey id => s.onKeys (.ok ∘ .key) (Store.read (s.keys.getByID cfg.keys id))
  | .listAPIKeys order => s.onKeys (.ok ∘ .keys) (s.keys.list cfg.keys order)
  | .validateAPIKey keySecret order =>
    if !apiKeyPrefix.toList.isPrefixOf keySecret.toList then (.error .invalidAPIKey, s)
    else
      let listed := s.keys.list cfg.keys order
      match listed.1 with
      | .error e => (.error e, {s with keys := listed.2})
      | .ok keys =>
        match matchingKey cfg keySecret keys with
        | none => (.error .invalidAPIKey, {s with keys := listed.2})
        | some k => (.ok (.key k), {s with keys := listed.2.updateLastUsed cfg.keys k.id r.now r.fails})
  | .createWebhook id dagName creatorID token =>
    if dagName = "" then (.error .invalidName, s)
    else if creatorID = "" then (.error .invalidCreatorID, s)
    else match token with
      | none => (.error .hash, s)
      | some (tokenHash, tokenPrefix) =>
        let w : Webhook := ⟨id, dagName, tokenHash, tokenPrefix, true, r.now, none⟩
        s.onWebhooks (.ok ∘ .webhook) (s.webhooks.create cfg.webhooks w r.now r.fails)
  | .deleteWebhook dagName => s.onWebhooks (fun _ => .ok .done) (s.webhooks.deleteByName cfg.webhooks dagName r.fails)
  | .getWebhookByDAGName dagName => s.onWebhooks (.ok ∘ .webhook) (Store.read (s.webhooks.getByName cfg.webhooks dagName))
  | .listWebhooks order => s.onWebhooks (.ok ∘ .webhooks) (s.webhooks.list cfg.webhooks order)
  | .validateWebhookToken dagName token =>
    if !webhookTokenPrefix.toList.isPrefixOf token.toList then (.error .invalidWebhookToken, s)
    else
      let found := Store.read (s.webhooks.getByName cfg.webhooks dagName)
      match found.1 with
      | .error .notFound => (.error .invalidWebhookToken, {s with webhooks := found.2})
      | .error e => (.error e, {s with webhooks := found.2})
      | .ok w =>
        match checkWebhook cfg token w with
        | .error e => (.error e, {s with webhooks := found.2})
        | .ok w => (.ok (.webhook w), {s with webhooks := found.2.updateLastUsed cfg.webhooks w.id r.now r.fails})

structure Expired where
  users : List String := []
  keys : List String := []
  webhooks : List String := []

def Service.expire (s : Service) (x : Expired) : Service where
  users := s.users.expire x.users
  keys := s.keys.expire x.keys
  webhooks := s.webhooks.expire x.webhooks

variable (s : Service)

def Service.serve (r : Request × Expired) : Answer × Service := (s.expire r.2).call cfg r.1

def Service.run (rs : List (Request × Expired)) : Service := rs.foldl (fun s r => (s.serve cfg r).2) s

def Service.answers (cfg : Config) (s : Service) : List (Request × Expired) → List Answer
  | [] => []
  | r::rs => (s.serve cfg r).1::(s.serve cfg r).2.answers cfg rs

open Store

/-! ### Two services with the same files -/

section
variable {R E : Type} {K : Kind R E}

structure Store.Agree (K : Kind R E) (s u : Store R) : Prop where
  left : s.Coherent K
  right : u.Coherent K
  disk : s.disk = u.disk

def Same (K : Kind R E) {α : Type} (x y : Except Error α × Store R) : Prop := x.1 = y.1 ∧ Store.Agree K x.2 y.2

variable {s u : Store R}

lemma Store.Agree.expire (h : s.Agree K u) (l l' : List String) : (s.expire l).Agree K (u.expire l') := by
  have hdrop : ∀ (v : Store R) (l : List String), v.Coherent K → (v.expire l).Coherent K := by
    intro v l hv
    refine hv.redisk hv.wf (fun _ hi => hi) fun id e he => ⟨?_, fun _ hf => hf⟩
    split_ifs at he
    exact he
  exact ⟨hdrop s l h.left, hdrop u l' h.right, h.disk⟩

lemma same_getByID (h : s.Agree K u) (id : String) : Same K (Store.read (s.getByID K id)) (Store.read (u.getByID K id)) := by
  obtain ⟨hcoh, hdisk, hfind, -⟩ := getByID_spec h.left id
  obtain ⟨hcoh', hdisk', hfind', -⟩ := getByID_spec h.right id
  exact ⟨by simp [Store.read, hfind, hfind', h.disk], hcoh, hcoh', by simp [Store.read, hdisk, hdisk', h.disk]⟩

lemma getByName_cases (h : s.disk = u.disk) (name : String) :
    (∃ e, s.getByName K name = (.error e, s) ∧ u.getByName K name = (.error e, u)) ∨
      ∃ id, s.getByName K name = s.getByID K id ∧ u.getByName K name = u.getByID K id := by
  unfold getByName
  rw [h]
  by_cases hempty : name = ""
  · exact .inl ⟨.invalidName, by simp [hempty], by simp [hempty]⟩
  rw [if_neg hempty, if_neg hempty]
  cases u.disk.byName name with
  | none => exact .inl ⟨.notFound, rfl, rfl⟩
  | some id => exact .inr ⟨id, rfl, rfl⟩

lemma same_getByName (h : s.Agree K u) (name : String) :
    Same K (Store.read (s.getByName K name)) (Store.read (u.getByName K name)) := by
  rcases getByName_cases h.disk name with ⟨e, hs, hu⟩ | ⟨id, hs, hu⟩
  · rw [hs, hu]
    exact ⟨rfl, h⟩
  · rw [hs, hu]
    exact same_getByID h id

lemma same_list (h : s.Agree K u) (order : List String) : Same K (s.list K order) (u.list K order) := by
  induction order generalizing s u with
  | nil => exact ⟨rfl, h⟩
  | cons id order ih =>
    obtain ⟨hanswer, hagree⟩ := same_getByID h id
    unfold Store.list
    unfold Store.read at hanswer hagree
    generalize s.getByID K id = x at hanswer hagree
    generalize u.getByID K id = y at hanswer hagree
    obtain ⟨x, s'⟩ := x
    obtain ⟨y, u'⟩ := y
    have hrest := ih hagree
    cases x with
    | ok x =>
      cases y with
      | error e => cases hanswer
      | ok y =>
        have hr : x.2 = y.2 := Except.ok.inj hanswer
        exact ⟨by simp [hr, hrest.1], hrest.2⟩
    | error e =>
      cases y with
      | ok y => cases hanswer
      | error e' =>
        obtain rfl : e = e' := Except.error.inj hanswer
        cases e with
        | notFound => exact hrest
        | _ => exact ⟨rfl, hagree⟩

variable {ops : List (Op R E)} {id : String}

lemma same_change (h : s.Agree K u) (hspares : Spares K s.disk id ops) (now : ℕ) :
    Same K (Store.change K (s.getByID K id) ops now false) (Store.change K (u.getByID K id) ops now false) := by
  obtain ⟨hanswer, hdisk, hcoh⟩ := change_spec h.left hspares now
  obtain ⟨hanswer', hdisk', hcoh'⟩ := change_spec h.right (h.disk ▸ hspares) now
  exact ⟨by rw [hanswer, hanswer', h.disk], hcoh, hcoh', by rw [hdisk, hdisk', h.disk]⟩

lemma change_error {d : Disk R} {now e} (h : (d.change K id ops now).1 = .error e) : (d.change K id ops now).2 = d := by
  unfold Disk.change at h ⊢
  cases hfind : d.find id with
  | error e => rfl
  | ok r =>
    rw [hfind] at h
    dsimp only at h ⊢
    generalize K.perform ops r = done at h ⊢
    obtain ⟨error, r'⟩ := done
    cases error with
    | some e => rfl
    | none => cases h

lemma agree_of_change_error (h : s.Coherent K) (hspares : Spares K s.disk id ops)
    {now e} (hfails : (Store.change K (s.getByID K id) ops now false).1 = .error e) :
    s.Agree K (Store.change K (s.getByID K id) ops now false).2 := by
  obtain ⟨hanswer, hdisk, hcoh⟩ := change_spec h hspares now
  exact ⟨h, hcoh, by rw [hdisk, change_error (hanswer ▸ hfails)]⟩

variable (h : s.Agree K u)
include h

lemma same_create (r : R) (now : ℕ) (fails : Bool) : Same K (s.create K r now fails) (u.create K r now fails) := by
  have hcreate : ∀ v : Store R, v.Coherent K → K.name r ≠ "" → K.id r ∉ v.disk.issued → Store.Coherent K ⟨⟨
      put v.disk.byName (K.name r) (some (K.id r)), put v.disk.files (K.id r) (some ⟨r, now⟩), K.id r::v.disk.issued⟩,
      v.cache, v.heap⟩ := by
    intro v hv hname hnew
    refine hv.redisk (hv.wf.put rfl hname fun _ hi => hi) (subset_cons_self _ _) fun id e he => ⟨he, fun f hf => ?_⟩
    rcases put_eq_some hf with ⟨rfl, -⟩ | ⟨-, hf⟩
    · exact absurd (hv.synced _ e he).1 hnew
    · exact hf
  unfold create
  rw [h.disk]
  split_ifs with hid hname hexists hfails
  · exact ⟨rfl, h⟩
  · exact ⟨rfl, h⟩
  · exact ⟨rfl, h⟩
  · exact ⟨rfl, h⟩
  · have hnew : K.id r ∉ u.disk.issued := fun hmem => hexists (.inr hmem)
    exact ⟨rfl, h.disk ▸ hcreate s h.left hname (h.disk.symm ▸ hnew), hcreate u h.right hname hnew, rfl⟩

lemma same_delete (id : String) (fails : Bool) : Same K (s.delete K id fails) (u.delete K id fails) := by
  have hdelete : ∀ (v : Store R) (names : String → Option String), v.Coherent K → Store.Coherent K ⟨⟨names,
      put v.disk.files id none, v.disk.issued⟩, v.cache, v.heap⟩ := by
    intro v names hv
    exact hv.redisk (fun i f hf => hv.wf i f (put_none_eq_some hf).2) (fun _ hi => hi) fun i e he =>
      ⟨he, fun f hf => (put_none_eq_some hf).2⟩
  unfold delete
  rw [h.disk]
  by_cases hempty : id = ""
  · rw [if_pos hempty, if_pos hempty]
    exact ⟨rfl, h⟩
  rw [if_neg hempty, if_neg hempty]
  cases u.disk.files id with
  | none => exact ⟨rfl, h⟩
  | some f =>
    cases fails with
    | true => exact ⟨rfl, h⟩
    | false =>
      have hs := (hdelete s (put u.disk.byName (K.name f.data) none) h.left).invalidate id
      have hu := (hdelete u (put u.disk.byName (K.name f.data) none) h.right).invalidate id
      rw [h.disk] at hs
      exact ⟨rfl, hs, hu, by simp [invalidate_disk]⟩

lemma same_deleteByName (name : String) (fails : Bool) :
    Same K (s.deleteByName K name fails) (u.deleteByName K name fails) := by
  unfold deleteByName
  rw [h.disk]
  split_ifs with hempty
  · exact ⟨rfl, h⟩
  cases u.disk.byName name with
  | none => exact ⟨rfl, h⟩
  | some id => exact same_delete h id fails

lemma Store.Agree.updateLastUsed (id : String) (now : ℕ) (fails : Bool) :
    (s.updateLastUsed K id now fails).Agree K (u.updateLastUsed K id now fails) := by
  have hused : ∀ (v : Store R) (f : File R), v.Coherent K → v.disk.files id = some f → Store.Coherent K ⟨⟨v.disk.byName,
      put v.disk.files id (some ⟨K.used now f.data, now⟩), v.disk.issued⟩, put v.cache id none, v.heap⟩ := by
    intro v f hv hf
    obtain ⟨hfid, hfname, hissued⟩ := hv.wf id f hf
    obtain ⟨hkid, hkname⟩ := K.key_used now f.data
    have hgrow : id::v.disk.issued ⊆ v.disk.issued := cons_subset.mpr ⟨hissued, fun _ hi => hi⟩
    refine hv.redisk (hv.wf.put (hkid.trans hfid) (hkname ▸ hfname) hgrow) (fun _ hi => hi) fun i e he => ?_
    obtain ⟨hi, he⟩ := put_none_eq_some he
    refine ⟨he, fun g hg => ?_⟩
    rcases put_eq_some hg with ⟨heq, -⟩ | ⟨-, hg⟩
    · exact absurd heq hi
    · exact hg
  unfold Store.updateLastUsed
  rw [h.disk]
  cases hf : u.disk.files id with
  | none => exact h
  | some f =>
    cases fails with
    | true => exact h
    | false =>
      have hs := hused s f h.left (h.disk ▸ hf)
      rw [h.disk] at hs
      exact ⟨hs, hused u f h.right hf, rfl⟩

end

open Spares

/-! ### Bodies that spare the record -/

section
variable {R E : Type} {K : Kind R E}

lemma perform_append (a b : List (Op R E)) (r : R) :
    K.perform (a++b) r = if (K.perform a r).1.isSome then K.perform a r else K.perform b (K.perform a r).2 := by
  induction a generalizing r with
  | nil => rfl
  | cons op a ih =>
    cases op with
    | edit e => exact ih _
    | check ok error =>
      by_cases hok : ok r
      · simpa [Kind.perform, hok] using ih r
      · simp [Kind.perform, hok]

lemma Spares.of_parts {d : Disk R} {id a b} (name : Option String)
    (hchecks : ∀ e, Op.edit e ∉ a) (hsure : ∀ ok error, Op.check ok error ∈ b → ∀ r, ok r)
    (hnames : ∀ e, .edit e ∈ b → ∀ r, K.name (K.edit e r) = K.name r ∨ name = some (K.name (K.edit e r)))
    (hname : name ≠ some "") (hfree : ∀ v other, name = some v → d.byName v = some other → other = id) :
    Spares K d id (a++b) := by
  have hkeeps : ∀ r, (K.perform a r).2 = r := fun r =>
    perform_induct (P := fun x => x = r) (fun e he => absurd he (hchecks e)) rfl
  have hpasses : ∀ r, (K.perform b r).1 = none := by
    clear hnames
    induction b with
    | nil => exact fun _ => rfl
    | cons op b ih =>
      intro r
      have hrest := ih fun ok error hmem => hsure ok error (mem_cons_of_mem _ hmem)
      cases op with
      | edit e => exact hrest _
      | check ok error => simpa [Kind.perform, hsure ok error mem_cons_self r] using hrest r
  have hnew : ∀ r, K.name (K.perform (a++b) r).2 = K.name r ∨ name = some (K.name (K.perform (a++b) r).2) := by
    intro r
    refine perform_induct (P := fun x => K.name x = K.name r ∨ name = some (K.name x)) (fun e he x hx => ?_) (.inl rfl)
    have hb : Op.edit e ∈ b := (mem_append.mp he).resolve_left (hchecks e)
    rcases hnames e hb x with heq | heq
    · rwa [heq]
    · exact .inr heq
  refine ⟨fun r e r' hdone => ?_, fun r r' hdone hr => ?_, fun r r' hdone => ?_⟩
  · rw [perform_append] at hdone
    split_ifs at hdone with herror
    · rw [← hkeeps r, hdone]
    · rw [hkeeps] at hdone
      exact absurd (congrArg Prod.fst hdone) (by simp [hpasses])
  · rcases hdone ▸ hnew r with heq | heq
    · exact heq ▸ hr
    · exact fun hempty => hname (hempty ▸ heq)
  · rcases hdone ▸ hnew r with heq | heq
    · exact .inl heq
    · exact .inr fun other => hfree _ other heq

lemma Spares.of_role {d : Disk R} {id head tail} {role : Option Role} {set : Role → E}
    (name : Option String) (hhead : ∀ ok error, Op.check ok error ∉ head)
    (hrole : (∃ v, role = some v ∧ ¬ v.valid) → head = [])
    (htail : ∀ ok error, Op.check ok error ∈ tail → ∀ r, ok r)
    (hnames : ∀ e, Op.edit e ∈ head++(role.elim [] fun v => [.check (fun _ => v.valid) .invalidRole, .edit (set v)])++tail →
      ∀ r, K.name (K.edit e r) = K.name r ∨ name = some (K.name (K.edit e r)))
    (hname : name ≠ some "") (hfree : ∀ v other, name = some v → d.byName v = some other → other = id) :
    Spares K d id (head++(role.elim [] fun v => [.check (fun _ => v.valid) .invalidRole, .edit (set v)])++tail) := by
  by_cases hinvalid : ∃ v, role = some v ∧ ¬ v.valid
  · obtain rfl := hrole hinvalid
    obtain ⟨v, rfl, -⟩ := hinvalid
    refine of_parts (a := [.check (fun _ => v.valid) .invalidRole]) (b := .edit (set v)::tail) name (by simp)
      (fun ok error hmem => htail ok error (by simpa using hmem)) (fun e he => hnames e ?_) hname hfree
    simpa using he
  refine of_parts (a := []) name (by simp) (fun ok error hmem r => ?_) hnames hname hfree
  rcases mem_append.mp hmem with hmem | hmem
  · cases role with
    | none => exact absurd (by simpa using hmem) (hhead ok error)
    | some v =>
      have hvalid : v.valid := by
        by_contra hnot
        exact hinvalid ⟨v, rfl, hnot⟩
      rcases mem_append.mp hmem with hmem | hmem
      · exact absurd hmem (hhead ok error)
      · obtain ⟨rfl, -⟩ : ok = (fun _ => v.valid) ∧ error = .invalidRole := by simpa using hmem
        exact hvalid
  · exact htail ok error hmem r

end

def Disk.Free {R : Type} (d : Disk R) (id : String) (name : Option String) : Prop :=
  ∀ v other, name = some v → d.byName v = some other → other = id

def Refused (password : Option String) (hash : Option String) : Prop :=
  ∃ v, password = some v ∧ ¬ (minPasswordLength ≤ v.utf8ByteSize ∧ hash.isSome)

def Service.Clean (r : Request) : Prop :=
  match r.call with
  | .updateUser id input hash => r.fails = false ∧ s.users.disk.Free id (given input.username) ∧
      ((∃ v, input.role = some v ∧ ¬ v.valid) → given input.username = none) ∧
      (Refused (given input.password) hash → given input.username = none ∧ input.role = none)
  | .updateAPIKey id input => r.fails = false ∧ s.keys.disk.Free id (given input.name) ∧
      ((∃ v, input.role = some v ∧ ¬ v.valid) → given input.name = none ∧ input.description = none)
  | .changePassword .. | .resetPassword .. | .toggleWebhook .. | .regenerateWebhookToken .. => r.fails = false
  | _ => True

lemma given_ne_empty (field : Option String) : given field ≠ some "" := by
  intro h
  exact absurd (Option.filter_eq_some_iff.mp h).2 (by simp)

lemma spares_setPassword (d : Disk User) (id password : String) (hash : Option String)
    (checks : List (Op User UserEdit)) {rest} (hchecks : ∀ e, Op.edit e ∉ checks)
    (hrest : ∀ op ∈ rest, ∃ e, op = .edit e ∧ ∀ u, (UserEdit.apply e u).username = u.username) :
    Spares cfg.users d id (checks++setPassword password hash++rest) := by
  have hparts : checks++setPassword password hash++rest =
      (checks++(setPassword password hash).take 2)++(.edit (.passwordHash (hash.getD ""))::rest) := by
    simp [setPassword]
  rw [hparts]
  refine of_parts none (fun e he => ?_) (fun ok error he => ?_) (fun e he u => .inl ?_) (by simp) (by simp)
  · rcases mem_append.mp he with he | he
    · exact hchecks e he
    · simp [setPassword] at he
  · rcases mem_cons.mp he with he | he
    · cases he
    · obtain ⟨e, he, -⟩ := hrest _ he
      cases he
  · rcases mem_cons.mp he with he | he
    · cases he
      rfl
    obtain ⟨e', he', hname⟩ := hrest _ he
    cases he'
    exact hname u

lemma mem_elim {α β : Type} {o : Option α} {f : α → List β} {x} : x ∈ o.elim [] f ↔ ∃ v, o = some v ∧ x ∈ f v := by
  cases o <;> simp

variable {input : UpdateUserInput} {hash : Option String}

lemma name_updateUser {now} {e : UserEdit} (h : .edit e ∈ updateUser input hash now) (u : User) :
    (e.apply u).username = u.username ∨ given input.username = some (e.apply u).username := by
  cases e with
  | username v =>
    simp only [updateUser, setPassword, mem_append, mem_elim, mem_cons, Op.edit.injEq, UserEdit.username.injEq] at h
    simp at h
    exact .inr h
  | _ => exact .inl rfl

lemma spares_updateUser {d id} (hfree : d.Free id (given input.username))
    (hrole : (∃ v, input.role = some v ∧ ¬ v.valid) → given input.username = none)
    (hpassword : Refused (given input.password) hash → given input.username = none ∧ input.role = none) (now : ℕ) :
    Spares cfg.users d id (updateUser input hash now) := by
  by_cases hrefused : Refused (given input.password) hash
  · obtain ⟨hname, hnone⟩ := hpassword hrefused
    obtain ⟨v, hv, -⟩ := hrefused
    have hbody : updateUser input hash now = []++setPassword v hash ++
        ((input.isDisabled.elim [] fun v => [.edit (.isDisabled v)])++[.edit (.updatedAt now)]) := by
      simp [updateUser, hname, hnone, hv]
    rw [hbody]
    refine spares_setPassword cfg d id v hash [] (by simp) fun op hop => ?_
    rcases mem_append.mp hop with hop | hop
    · obtain ⟨b, -, hop⟩ := mem_elim.mp hop
      exact ⟨_, mem_singleton.mp hop, fun _ => rfl⟩
    · exact ⟨_, mem_singleton.mp hop, fun _ => rfl⟩
  have hsure : ∀ ok error, Op.check ok error ∈ (given input.password).elim [] (fun v => setPassword v hash) →
      ∀ u, ok u := by
    intro ok error hmem u
    obtain ⟨v, hv, hmem⟩ := mem_elim.mp hmem
    have hok : minPasswordLength ≤ v.utf8ByteSize ∧ hash.isSome := by
      by_contra hnot
      exact hrefused ⟨v, hv, hnot⟩
    simp only [setPassword, mem_cons, Op.check.injEq, not_mem_nil, or_false, reduceCtorEq] at hmem
    rcases hmem with ⟨rfl, -⟩ | ⟨rfl, -⟩
    · simpa using hok.1
    · exact hok.2
  have hnames : ∀ e, .edit e ∈ updateUser input hash now → ∀ u : User,
      (e.apply u).username = u.username ∨ given input.username = some (e.apply u).username := fun e he => name_updateUser he
  unfold updateUser at hnames ⊢
  simp only [append_assoc] at hnames ⊢
  rw [← append_assoc] at hnames ⊢
  refine of_role (given input.username) (fun ok error hmem => ?_) (fun hinvalid => ?_) (fun ok error hmem => ?_) hnames
    (given_ne_empty _) hfree
  · obtain ⟨v, -, hmem⟩ := mem_elim.mp hmem
    simp at hmem
  · rw [hrole hinvalid]
    rfl
  · rcases mem_append.mp hmem with hmem | hmem
    · exact hsure ok error hmem
    · exact absurd hmem (by cases input.isDisabled <;> simp)

lemma spares_updateAPIKey {d id} {input : UpdateAPIKeyInput} (hfree : d.Free id (given input.name))
    (hrole : (∃ v, input.role = some v ∧ ¬ v.valid) → given input.name = none ∧ input.description = none) (now : ℕ) :
    Spares cfg.keys d id (updateAPIKey input now) := by
  refine of_role (given input.name) (fun ok error hmem => ?_) (fun hinvalid => ?_) (by simp) (fun e he k => ?_)
    (given_ne_empty _) hfree
  · cases hname : given input.name <;> cases hdescription : input.description <;> simp [hname, hdescription] at hmem
  · obtain ⟨hname, hdescription⟩ := hrole hinvalid
    simp [hname, hdescription]
  cases e with
  | name v =>
    right
    cases hname : given input.name <;> cases hdescription : input.description <;> cases hr : input.role <;>
      simp [hname, hdescription, hr] at he
    all_goals exact he ▸ rfl
  | _ => exact .inl rfl

/-! ### Calls that fail -/

structure Service.Agree (s u : Service) : Prop where
  users : s.users.Agree cfg.users u.users
  keys : s.keys.Agree cfg.keys u.keys
  webhooks : s.webhooks.Agree cfg.webhooks u.webhooks

open Service

section
variable {cfg : Config} {s u : Service} {α : Type}

lemma Service.Agree.onUsers (h : s.Agree cfg u) {x y} (hsame : Same cfg.users x y)
    (f : α → Answer) : (s.onUsers f x).1 = (u.onUsers f y).1 ∧ (s.onUsers f x).2.Agree cfg (u.onUsers f y).2 :=
  ⟨by simp [Service.onUsers, hsame.1], hsame.2, h.keys, h.webhooks⟩

lemma Service.Agree.onKeys (h : s.Agree cfg u) {x y} (hsame : Same cfg.keys x y)
    (f : α → Answer) : (s.onKeys f x).1 = (u.onKeys f y).1 ∧ (s.onKeys f x).2.Agree cfg (u.onKeys f y).2 :=
  ⟨by simp [Service.onKeys, hsame.1], h.users, hsame.2, h.webhooks⟩

lemma Service.Agree.onWebhooks (h : s.Agree cfg u) {x y} (hsame : Same cfg.webhooks x y) (f : α → Answer) :
    (s.onWebhooks f x).1 = (u.onWebhooks f y).1 ∧ (s.onWebhooks f x).2.Agree cfg (u.onWebhooks f y).2 :=
  ⟨by simp [Service.onWebhooks, hsame.1], h.users, h.keys, hsame.2⟩

variable (d : Disk Webhook)

lemma spares_webhook (id : String) (checks : List (Op Webhook WebhookEdit)) (edits : List WebhookEdit)
    (hchecks : ∀ e, Op.edit e ∉ checks) : Spares cfg.webhooks d id (checks++edits.map .edit) := by
  refine of_parts none hchecks (fun ok error hmem => ?_) (fun e _ w => .inl ?_) (by simp) (by simp)
  · simp at hmem
  · cases e <;> rfl

lemma same_changeWebhook (h : s.Agree cfg u) (dagName : String) {ops}
    (hspares : ∀ id, Spares cfg.webhooks s.webhooks.disk id ops) (now : ℕ) :
    Same cfg.webhooks (Store.change cfg.webhooks (s.webhooks.getByName cfg.webhooks dagName) ops now false)
      (Store.change cfg.webhooks (u.webhooks.getByName cfg.webhooks dagName) ops now false) := by
  rcases getByName_cases (K := cfg.webhooks) h.webhooks.disk dagName with ⟨e, hs, hu⟩ | ⟨id, hs, hu⟩
  · rw [hs, hu]
    exact ⟨rfl, h.webhooks⟩
  · rw [hs, hu]
    exact same_change h.webhooks (hspares id) now

lemma spares_toggleWebhook (enabled : Bool) (now : ℕ) (id : String) :
    Spares cfg.webhooks d id (toggleWebhook enabled now) :=
  spares_webhook d id [] [.enabled enabled, .updatedAt now] (by simp)

lemma spares_regenerateWebhookToken (token : Option (String × String)) (now : ℕ) (id : String) :
    Spares cfg.webhooks d id (regenerateWebhookToken token now) :=
  spares_webhook d id [.check (fun _ => token.isSome) .hash]
    [.tokenHash (token.getD ("", "")).1, .tokenPrefix (token.getD ("", "")).2, .updatedAt now] (by simp)

lemma spares_changePassword (d : Disk User) (id oldPassword newPassword : String) (hash : Option String) (now : ℕ) :
    Spares cfg.users d id (changePassword cfg.compare oldPassword newPassword hash now) :=
  spares_setPassword cfg d id newPassword hash [.check (fun u => cfg.compare u.passwordHash oldPassword) .passwordMismatch]
    (by simp) (fun op hop => ⟨_, mem_singleton.mp hop, fun _ => rfl⟩)

lemma spares_resetPassword (d : Disk User) (id newPassword : String) (hash : Option String) (now : ℕ) :
    Spares cfg.users d id (resetPassword newPassword hash now) :=
  spares_setPassword cfg d id newPassword hash [] (by simp) (fun op hop => ⟨_, mem_singleton.mp hop, fun _ => rfl⟩)

variable {r : Request}

lemma call_agree (h : s.Agree cfg u) (hclean : s.Clean r) :
    (s.call cfg r).1 = (u.call cfg r).1 ∧ (s.call cfg r).2.Agree cfg (u.call cfg r).2 := by
  obtain ⟨call, now, fails⟩ := r
  cases call with
  | updateUser id input hash =>
    obtain ⟨rfl, hfree, hrole, hpassword⟩ := hclean
    exact h.onUsers (same_change h.users (spares_updateUser cfg hfree hrole hpassword now) now) _
  | changePassword id oldPassword newPassword hash =>
    obtain rfl : fails = false := hclean
    exact h.onUsers (same_change h.users (spares_changePassword ..) now) _
  | resetPassword id newPassword hash =>
    obtain rfl : fails = false := hclean
    exact h.onUsers (same_change h.users (spares_resetPassword ..) now) _
  | updateAPIKey id input =>
    obtain ⟨rfl, hfree, hrole⟩ := hclean
    exact h.onKeys (same_change h.keys (spares_updateAPIKey cfg hfree hrole now) now) _
  | toggleWebhook dagName enabled =>
    obtain rfl : fails = false := hclean
    exact h.onWebhooks (same_changeWebhook h dagName (spares_toggleWebhook _ enabled now) now) _
  | regenerateWebhookToken dagName token =>
    obtain rfl : fails = false := hclean
    exact h.onWebhooks (same_changeWebhook h dagName (spares_regenerateWebhookToken _ token now) now) _
  | createUser id username password role hash =>
    dsimp only [call]
    split_ifs
    · exact ⟨rfl, h⟩
    · exact ⟨rfl, h⟩
    cases hash with
    | none => exact ⟨rfl, h⟩
    | some hash => exact h.onUsers (same_create h.users _ now fails) _
  | deleteUser id currentUserID =>
    dsimp only [call]
    split_ifs
    · exact ⟨rfl, h⟩
    · exact h.onUsers (same_delete h.users id fails) _
  | getUser id => exact h.onUsers (same_getByID h.users id) _
  | listUsers order => exact h.onUsers (same_list h.users order) _
  | authenticate username password =>
    obtain ⟨hanswer, hagree⟩ := same_getByName h.users username
    dsimp only [call]
    rw [hanswer]
    split
    · exact ⟨rfl, hagree, h.keys, h.webhooks⟩
    · exact ⟨rfl, hagree, h.keys, h.webhooks⟩
    · exact h.onUsers ⟨hanswer, hagree⟩ _
  | getUserFromToken claims =>
    cases claims with
    | error e => exact ⟨rfl, h⟩
    | ok id =>
      obtain ⟨hanswer, hagree⟩ := same_getByID h.users id
      dsimp only [call]
      rw [hanswer]
      split
      · exact ⟨rfl, hagree, h.keys, h.webhooks⟩
      · exact ⟨rfl, hagree, h.keys, h.webhooks⟩
      · exact h.onUsers ⟨hanswer, hagree⟩ _
  | createAPIKey id name description role creatorID key =>
    dsimp only [call]
    split_ifs
    · exact ⟨rfl, h⟩
    · exact ⟨rfl, h⟩
    · exact ⟨rfl, h⟩
    cases key with
    | none => exact ⟨rfl, h⟩
    | some key => exact h.onKeys (same_create h.keys _ now fails) _
  | deleteAPIKey id => exact h.onKeys (same_delete h.keys id fails) _
  | getAPIKey id => exact h.onKeys (same_getByID h.keys id) _
  | listAPIKeys order => exact h.onKeys (same_list h.keys order) _
  | validateAPIKey keySecret order =>
    obtain ⟨hanswer, hagree⟩ := same_list h.keys order
    dsimp only [call]
    rw [hanswer]
    split_ifs
    · exact ⟨rfl, h⟩
    split
    · exact ⟨rfl, h.users, hagree, h.webhooks⟩
    split
    · exact ⟨rfl, h.users, hagree, h.webhooks⟩
    · exact ⟨rfl, h.users, hagree.updateLastUsed _ now fails, h.webhooks⟩
  | createWebhook id dagName creatorID token =>
    dsimp only [call]
    split_ifs
    · exact ⟨rfl, h⟩
    · exact ⟨rfl, h⟩
    cases token with
    | none => exact ⟨rfl, h⟩
    | some token => exact h.onWebhooks (same_create h.webhooks _ now fails) _
  | deleteWebhook dagName => exact h.onWebhooks (same_deleteByName h.webhooks dagName fails) _
  | getWebhookByDAGName dagName => exact h.onWebhooks (same_getByName h.webhooks dagName) _
  | listWebhooks order => exact h.onWebhooks (same_list h.webhooks order) _
  | validateWebhookToken dagName token =>
    obtain ⟨hanswer, hagree⟩ := same_getByName h.webhooks dagName
    dsimp only [call]
    rw [hanswer]
    split_ifs
    · exact ⟨rfl, h⟩
    split
    · exact ⟨rfl, h.users, h.keys, hagree⟩
    · exact ⟨rfl, h.users, h.keys, hagree⟩
    · split
      · exact ⟨rfl, h.users, h.keys, hagree⟩
      · exact ⟨rfl, h.users, h.keys, hagree.updateLastUsed _ now fails⟩

def Call.IsChange : Call → Prop
  | .updateUser .. | .changePassword .. | .resetPassword .. | .updateAPIKey ..
  | .toggleWebhook .. | .regenerateWebhookToken .. => True
  | _ => False

lemma error_of_bind {α β : Type} {x : Except Error α} {f : α → β} {e} (h : x.bind (fun a => .ok (f a)) = .error e) :
    x = .error e := by
  cases x with
  | error e' => simpa [Except.bind] using h
  | ok a => cases h

lemma agree_of_call_error (h : s.Agree cfg s) (hchange : r.call.IsChange) (hclean : s.Clean r) {e}
    (herror : (s.call cfg r).1 = .error e) : s.Agree cfg (s.call cfg r).2 := by
  obtain ⟨call, now, fails⟩ := r
  have hwebhook : ∀ dagName ops, (∀ id, Spares cfg.webhooks s.webhooks.disk id ops) →
      (change cfg.webhooks (s.webhooks.getByName cfg.webhooks dagName) ops now false).1 = .error e →
      s.webhooks.Agree cfg.webhooks (change cfg.webhooks (s.webhooks.getByName cfg.webhooks dagName) ops now false).2 := by
    intro dagName ops hspares hfails
    rcases getByName_cases (K := cfg.webhooks) (u := s.webhooks) rfl dagName with ⟨e, hs, -⟩ | ⟨id, hs, -⟩
    · rw [hs]
      exact h.webhooks
    · rw [hs] at hfails ⊢
      exact agree_of_change_error h.webhooks.left (hspares id) hfails
  cases call with
  | updateUser id input hash =>
    obtain ⟨rfl, hfree, hrole, hpassword⟩ := hclean
    have hspares := spares_updateUser cfg hfree hrole hpassword now
    exact ⟨agree_of_change_error h.users.left hspares (error_of_bind herror), h.keys, h.webhooks⟩
  | changePassword id oldPassword newPassword hash =>
    obtain rfl : fails = false := hclean
    exact ⟨agree_of_change_error h.users.left (spares_changePassword ..) (error_of_bind herror), h.keys, h.webhooks⟩
  | resetPassword id newPassword hash =>
    obtain rfl : fails = false := hclean
    exact ⟨agree_of_change_error h.users.left (spares_resetPassword ..) (error_of_bind herror), h.keys, h.webhooks⟩
  | updateAPIKey id input =>
    obtain ⟨rfl, hfree, hrole⟩ := hclean
    have hspares := spares_updateAPIKey cfg hfree hrole now
    exact ⟨h.users, agree_of_change_error h.keys.left hspares (error_of_bind herror), h.webhooks⟩
  | toggleWebhook dagName enabled =>
    obtain rfl : fails = false := hclean
    exact ⟨h.users, h.keys, hwebhook dagName _ (spares_toggleWebhook _ enabled now) (error_of_bind herror)⟩
  | regenerateWebhookToken dagName token =>
    obtain rfl : fails = false := hclean
    exact ⟨h.users, h.keys, hwebhook dagName _ (spares_regenerateWebhookToken _ token now) (error_of_bind herror)⟩
  | _ => exact hchange.elim

lemma Service.Agree.expire (h : s.Agree cfg u) (x y : Expired) : (s.expire x).Agree cfg (u.expire y) :=
  ⟨h.users.expire _ _, h.keys.expire _ _, h.webhooks.expire _ _⟩

def Service.CleanRun (cfg : Config) (s : Service) : List (Request × Expired) → Prop
  | [] => True
  | r::rs => s.Clean r.1 ∧ (s.serve cfg r).2.CleanRun cfg rs

lemma serve_agree (h : s.Agree cfg u) (hclean : s.Clean r) (x y : Expired) :
    (s.serve cfg (r, x)).1 = (u.serve cfg (r, y)).1 ∧ (s.serve cfg (r, x)).2.Agree cfg (u.serve cfg (r, y)).2 :=
  call_agree (h.expire x y) (r := r) hclean

lemma answers_agree (h : s.Agree cfg u) {rs rs' : List (Request × Expired)} (hclean : s.CleanRun cfg rs)
    (hsame : rs'.map Prod.fst = rs.map Prod.fst) : s.answers cfg rs = u.answers cfg rs' := by
  induction rs generalizing s u rs' with
  | nil => rw [map_eq_nil_iff.mp hsame]; rfl
  | cons r rs ih =>
    obtain ⟨r', rest, rfl, hr, hrest⟩ := map_eq_cons_iff.mp hsame
    obtain ⟨r, x⟩ := r
    obtain ⟨r', y⟩ := r'
    obtain rfl : r' = r := hr
    obtain ⟨hanswer, hagree⟩ := serve_agree h hclean.1 x y
    simp only [answers, hanswer, ih hagree hclean.2 hrest]

lemma run_agree (h : s.Agree cfg s) {rs} (hclean : s.CleanRun cfg rs) : (s.run cfg rs).Agree cfg (s.run cfg rs) := by
  induction rs generalizing s with
  | nil => exact h
  | cons r rs ih => exact ih (serve_agree h hclean.1 r.2 r.2).2 hclean.2

/-- The stores have just been opened: every file holds the record it is named after, and nothing is cached. -/
structure Service.Opened (cfg : Config) (s : Service) : Prop where
  users : s.users.disk.WellFormed cfg.users
  keys : s.keys.disk.WellFormed cfg.keys
  webhooks : s.webhooks.disk.WellFormed cfg.webhooks
  cold : ∀ id, s.users.cache id = none ∧ s.keys.cache id = none ∧ s.webhooks.cache id = none

lemma Service.Opened.agree (h : s.Opened cfg) : s.Agree cfg s := by
  have hcold : ∀ {R E : Type} {K : Kind R E} {v : Store R}, v.disk.WellFormed K → (∀ id, v.cache id = none) → v.Agree K v := by
    intro R E K v hwf hnone
    have hcoh : v.Coherent K := ⟨hwf, by simp [hnone], by simp [hnone]⟩
    exact ⟨hcoh, hcoh, rfl⟩
  exact ⟨hcold h.users fun id => (h.cold id).1, hcold h.keys fun id => (h.cold id).2.1,
    hcold h.webhooks fun id => (h.cold id).2.2⟩

end

/-- A change that fails before it assigns to a field has no effect on any later answer, as long as every other change
that fails does so too. -/
theorem failed_change_without_effect (cfg : Config) {s : Service} (hopened : s.Opened cfg) (before : List (Request × Expired))
    {after after' : List (Request × Expired)}
    {c : Request} {x : Expired} {e : Error} (hbefore : s.CleanRun cfg before) (hchange : c.call.IsChange)
    (hclean : (s.run cfg before).Clean c) (herror : ((s.run cfg before).serve cfg (c, x)).1 = .error e)
    (hafter : ((s.run cfg before).serve cfg (c, x)).2.CleanRun cfg after) (hsame : after'.map Prod.fst = after.map Prod.fst) :
    ((s.run cfg before).serve cfg (c, x)).2.answers cfg after = (s.run cfg before).answers cfg after' := by
  have hbase := run_agree hopened.agree hbefore
  -- Entries that expire before the call do no harm either.
  have hexpired := hbase.expire x x
  have hfailed := agree_of_call_error hexpired hchange hclean herror
  have hundone : ((s.run cfg before).serve cfg (c, x)).2.Agree cfg (s.run cfg before) :=
    ⟨⟨hfailed.users.right, hbase.users.left, hfailed.users.disk.symm⟩,
      ⟨hfailed.keys.right, hbase.keys.left, hfailed.keys.disk.symm⟩,
      ⟨hfailed.webhooks.right, hbase.webhooks.left, hfailed.webhooks.disk.symm⟩⟩
  exact answers_agree hundone hafter hsame

def viewer : User := {id := "u1", username := "ann", passwordHash := "hash", role := .viewer}

def Disk.empty {R : Type} : Disk R := ⟨fun _ => none, fun _ => none, []⟩

def oneUser : Service where
  users := {disk := ⟨put (fun _ => none) "ann" (some "u1"), put (fun _ => none) "u1" (some ⟨viewer, 0⟩), ["u1"]⟩}
  keys := {disk := .empty}
  webhooks := {disk := .empty}

def plain : Config := ⟨fun hash text => hash = text, fun _ => 0, fun _ => 0, fun _ => 0⟩

lemma oneUser_opened : oneUser.Opened plain where
  users id f h := by
    change put (fun _ => none) "u1" (some ⟨viewer, 0⟩) id = some f at h
    rcases put_eq_some h with ⟨rfl, h⟩ | ⟨-, h⟩
    · cases h
      exact ⟨rfl, by decide, mem_singleton.mpr rfl⟩
    · cases h
  keys _ _ h := by cases h
  webhooks _ _ h := by cases h
  cold _ := ⟨rfl, rfl, rfl⟩

def ask : List (Request × Expired) := [(⟨.getUserFromToken (.ok "u1"), 2, false⟩, {})]

/-- An update with an invalid role is refused, and the token's user is the one there was. -/
theorem failed_change_without_effect_role :
    (oneUser.serve plain (⟨.updateUser "u1" {role := some (.other "root")} none, 1, false⟩, {})).2.answers plain ask =
      oneUser.answers plain ask := by
  refine failed_change_without_effect plain oneUser_opened [] trivial trivial ⟨rfl, ?_, ?_, ?_⟩ rfl ⟨trivial, trivial⟩ rfl
  · intro v other h
    cases h
  · exact fun _ => rfl
  · rintro ⟨v, h, -⟩
    cases h

def escalate : Request × Expired := (⟨.updateUser "u1" {role := some .admin, password := some "short"} none, 1, false⟩, {})

/-- An update to admin whose password is too short is refused, and the user is an admin from then on. -/
theorem failed_change_visible : (oneUser.serve plain escalate).1 = .error .weakPassword ∧
      (oneUser.serve plain escalate).2.answers plain ask = [.ok (.user {viewer with role := .admin})] ∧
      oneUser.answers plain ask = [.ok (.user viewer)] := ⟨rfl, rfl, rfl⟩

end Ayatsuri.Accounts
