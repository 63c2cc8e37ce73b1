import CupidOs.BlockCache.Refinement
import CupidOs.Crypto.Ecdsa
import CupidOs.Crypto.Rsa
import CupidOs.Ed.Undo
import CupidOs.Exec.Writers
import CupidOs.Heap.Grants
import CupidOs.Homefs.Growth
import CupidOs.Homefs.Persistence
import CupidOs.Iso9660.Names
import CupidOs.Net.Acks
import CupidOs.Net.Dns
import CupidOs.Net.Pending
import CupidOs.Net.Reassembly
import CupidOs.Net.Stream
import CupidOs.Net.Udp
import CupidOs.Popup.Months
import CupidOs.Ramfs.FileRefinement
import CupidOs.Scheduler.Fairness
import CupidOs.Shell.Jit
import CupidOs.Shell.Sinks
import CupidOs.Smp.Balance
import CupidOs.Ssh.Safety
import CupidOs.Swap.Lru
import CupidOs.Tls.AppData
import CupidOs.Tls.HandshakeAuthentic
import CupidOs.Vfs.Mounts
import CupidOs.X509.CertificateSafe
import CupidOs.X509.Times
