import NamedStores.KeyValue.Handle
import NamedStores.KeyValue.Memory
import NamedStores.Main
import NamedStores.Proofs.Credentials
import NamedStores.Proofs.Handle.Clients
import NamedStores.Proofs.Handle.Policy
import NamedStores.Proofs.KeyValue.Acceptance
import NamedStores.Proofs.KeyValue.ConnectionUrl
import NamedStores.Proofs.KeyValue.Expiration
import NamedStores.Proofs.KeyValue.OneMap
import NamedStores.Proofs.KeyValue.OwnCredentials
import NamedStores.Proofs.Registry.Connect
import NamedStores.Proofs.Registry.Disconnect
import NamedStores.Proofs.Registry.Fatality
import NamedStores.Proofs.Registry.Lazy
import NamedStores.Proofs.Registry.Listing
import NamedStores.Proofs.Registry.Session
import NamedStores.Proofs.Registry.Staged
import NamedStores.Proofs.Secrecy
import NamedStores.Proofs.Sql.Acceptance
import NamedStores.Proofs.Sql.Columns
import NamedStores.Proofs.Sql.NumericForm
import NamedStores.Proofs.Sql.ParamText
import NamedStores.Proofs.Sql.PoolLimits
import NamedStores.Proofs.Sql.PoolReading
import NamedStores.Proofs.Sql.SqliteFile
import NamedStores.Proofs.Sql.StorageClass
import NamedStores.Proofs.Sqlite.Phrase
import NamedStores.Proofs.Startup.Ending
import NamedStores.Proofs.Url.Exposure
import NamedStores.Session
import NamedStores.Sql.Handle
import NamedStores.Sql.Script
