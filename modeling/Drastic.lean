import Drastic.Physical.PageRuns
import Drastic.RangeTree.Unchanged
import Drastic.RangeTree.Assertions
import Drastic.Library.RadixGrowth
import Drastic.Platform.Acpi
import Drastic.Platform.Gdt
import Drastic.Paging.CloneCopies
import Drastic.Paging.Rights
import Drastic.Physical.Zones
import Drastic.Physical.AllocFree
import Drastic.Text.Compose
import Drastic.Platform.InterruptEntry
import Drastic.Platform.Idt
import Drastic.Platform.Memory
import Drastic.RangeTree.Depth
import Drastic.RangeTree.DeleteContract
import Drastic.RangeTree.TaggedSurgery
import Drastic.Kernel.Boot
import Drastic.Kernel.Crash
import Drastic.RangeTree.Validator
import Drastic.RangeTree.PeakPages
import Drastic.Kernel.Apic
import Drastic.Kernel.AcpiSetup
import Drastic.Tools.Assembly
import Drastic.Tools.Unpack
import Drastic.Console.Logging
import Drastic.Kernel.Framebuffer
