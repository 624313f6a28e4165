import Seccompy.Syscalls.Names
import Seccompy.Filter.Portable
import Seccompy.Bpf.Simulation
import Seccompy.Filter.Foreign
import Seccompy.Filter.Size
import Seccompy.Notify.Requests
import Seccompy.Absent
import Seccompy.Reported
import Seccompy.Filter.Enforced
import Seccompy.Capability
import Seccompy.Testing.Probed
import Seccompy.Filter.Oracle
import Seccompy.Notify.Supervised
