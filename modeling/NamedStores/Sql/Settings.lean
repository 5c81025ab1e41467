/-
Settings of a database handle, read from its record. The address decides the product. A user
name or password in the record replaces the one in the address, which is then read and
written as a URL; without either the address stays as it is written.
-/
import NamedStores.Mask
import NamedStores.Record
import NamedStores.Sql.PoolOptions
import NamedStores.Sql.Product
import NamedStores.Url.Reader

namespace NamedStores.Sql

structure Settings where
  product : Product
  /-- The address with the credentials in force; never to be shown unmasked. -/
  address : String
  userName : Option String
  password : Option String
  pool : PoolOptions

namespace Settings

variable [Url.HostNames]

/-- An address with another user name and password, where given, or why it takes none. -/
def withCredentials (address : String) (userName password : Option String) :
    Except String String :=
  match Url.ofText address with
  | .error flaw =>
    let message := flaw.message
    .error s!"Invalid address: {message}"
  | .ok url =>
    let named := match userName with
      | some name => url.withUserName? name
      | none => some url
    let done := match password with
      | some secret => named.bind (·.withPassword? secret)
      | none => named
    match done with
    | some url => .ok url.text
    | none => .error "Address cannot carry credentials"

def ofRecord (record : Record) : Except Defect Settings := do
  let address ← record.requiredText "address"
  let some product := Product.ofAddress? address
    | let masked := Mask.hide address
      throw ⟨"address field", s!"unknown database type in address '{masked}'"⟩
  let userName := record.optionalText "user_name"
  let password := record.optionalText "password"
  let address ←
    if userName.isSome || password.isSome then
      (withCredentials address userName password).mapError fun reason =>
        (⟨"user_name field", reason⟩ : Defect)
    else pure address
  let pool := PoolOptions.ofRecord record
  match pool.invalid? with
  | some invalid => throw ⟨"pool options", invalid.message⟩
  | none => return ⟨product, address, userName, password, pool⟩

/-- The address as it may be shown. -/
def masked (s : Settings) : String := Mask.hide s.address

/-- The settings as they may be shown: without address and password. -/
def json (s : Settings) : Json :=
  Json.fields [
    ("db_type", .string s.product.label),
    ("user_name", Json.ofText? s.userName),
    ("pool_options", s.pool.json)]

end Settings

end NamedStores.Sql
