/-!
# The starter tree

What a new session finds in its filesystem: a home directory with notes, a few system files and an
empty directory for temporary files.
-/

namespace Shellbox.Filesystem.Starter

def readme : String := "Welcome to my Cybersecurity Portfolio Terminal!

This interactive terminal provides access to my projects, research, and experience.

Quick Start:
  ls              - List files in current directory
  cat <file>      - Display file contents
  cd <directory>  - Change directory
  help            - Show available commands

Notable Directories:
  ~/cyberops      - Cybersecurity tools & frameworks
  ~/research      - Hardware, radio, and chemistry projects
  ~/intel         - CTF writeups and technical notes
  ~/about         - Professional profile and certifications

Type 'help' for a full list of commands.
"

/-- The hidden file in the home directory. -/
def hiddenFlag : String := "Congratulations! You found the hidden flag.

FLAG\x7bw3lc0m3_t0_th3_t3rm1n4l_h4ck3r\x7d

You've demonstrated curiosity and basic enumeration skills - key traits
for any security professional. Keep exploring!
"

def healthMonitor : String := "Dependency Health Monitor (DHM)
================================================================================

Python tool for comprehensive dependency health assessments. Calculates weighted
health scores across security, maintenance, community, and popularity metrics.

Features:
  - OSV vulnerability scanning integration
  - Weighted health scoring (A-F grades)
  - License categorization and risk assessment
  - SQLite caching for performance
  - CI/CD-ready JSON output

Tech Stack: Python, PyPI, OSV API
Status: Active - Published on PyPI
"

def securitySuite : String := "Linux Security Suite (LSS)
================================================================================

Unified desktop security dashboard consolidating multiple security tools into
a single monitoring interface with threat intelligence integration.

Core Components:
  - Suricata/Snort IDS integration
  - ClamAV antivirus monitoring
  - Firewall management
  - JA3/JA4 TLS fingerprinting

Tech Stack: Python, Suricata, ClamAV, Flask
Status: Active - Personal infrastructure deployment
"

def purpleSploit : String := "PurpleSploit - Pentesting Workflow Framework
================================================================================

A framework for pentesting workflow efficiency with centralized
credential and target management.

Features:
  - SQLite-based credential/hash management
  - Nmap XML parsing for service enumeration
  - fzf-powered interactive selection menus
  - Automated exploit module system

Tech Stack: Python, SQLite, Flask
Status: Active development
"

/-- Notes on the mobile contest platform. -/
def mobileContest : String := "iCTF - Mobile CTF Platform
================================================================================

Mobile cybersecurity CTF platform for iOS providing hands-on security challenges
without requiring jailbreak.

Challenge Categories:
  - Cryptography
  - Web Security
  - Forensics
  - Reverse Engineering

Tech Stack: Swift, SwiftUI
Status: Active
"

def assistedTesting : String := "MCP-Kali - AI-Assisted Penetration Testing Bridge
================================================================================

Model Context Protocol server exposing Kali Linux tooling to AI assistants
for guided, human-approved reconnaissance and enumeration.

Features:
  - Tool wrappers for nmap, gobuster and nikto
  - Structured output for follow-up analysis
  - Approval gate before every active scan

Tech Stack: Python, MCP, Kali Linux
Status: Experimental
"

def millingMachine : String := "Mini-CNC Machine with GRBL Controller
================================================================================

Built using aluminum extrusion, stepper motors, 10k rpm spindle motor, and
open-source GRBL control board. Total cost under $200.

Components:
  - Aluminum extrusion frame
  - NEMA17 stepper motors
  - GRBL CNC controller
  - 10,000 RPM spindle

Software: GRBL, bCNC, KiCAD for PCB design
"

def radioProjects : String := "RTL-SDR Projects
================================================================================

Software Defined Radio experiments with RTL-SDR dongles.

Projects:
  - ADS-B aircraft tracking
  - Weather satellite imagery (NOAA)
  - SSTV from ISS
  - Pager monitoring
"

def boardEtching : String := "Chemical PCB Etching
================================================================================

Home PCB fabrication using various etchants.

Etchants Used:
  - Ferric chloride (FeCl3)
  - Cupric chloride (CuCl2)
  - Sodium persulfate

Process: Photoresist -> UV exposure -> Develop -> Etch -> Drill
"

def dailyBugle : String := "THM - Daily Bugle
================================================================================
Platform: TryHackMe

Attack Chain:
  1. Joomla enumeration
  2. CVE-2017-8917 (SQLi)
  3. Hash extraction
  4. Hashcat password cracking
  5. Webshell upload
  6. yum privilege escalation
"

def rootMe : String := "THM - RootMe
================================================================================
Platform: TryHackMe

Attack Chain:
  1. Directory bruteforcing
  2. File upload bypass
  3. Reverse shell
  4. SUID binary exploitation
"

def privilegeNotes : String := "Linux Privilege Escalation Notes
================================================================================

Common Techniques:
  - SUID/SGID binaries
  - Sudo misconfigurations
  - Kernel exploits
  - Capabilities abuse
  - Cron job exploitation
  - PATH hijacking

Tools: LinPEAS, Linux Exploit Suggester, pspy
"

def webNotes : String := "Web Application Attack Notes
================================================================================

OWASP Top 10:
  - SQL Injection
  - XSS (Reflected, Stored, DOM)
  - SSTI (Server-Side Template Injection)
  - SSRF (Server-Side Request Forgery)
  - Insecure Deserialization

Tools: Burp Suite, SQLMap, ffuf, Nuclei
"

def profile : String := "=== Professional Profile ===

Offensive security specialist focused on penetration testing, red teaming,
and security tool development.

Focus areas:
  - Active Directory security
  - Cloud penetration testing
  - Security automation in Python
"

def certifications : String := "Professional Certifications

[*] Offensive Security Certified Professional (OSCP)
[*] Offensive Security Experienced Penetration Tester (OSEP)
[*] CompTIA Security+
"

def contact : String := "=== Contact ===

Profiles:
  - GitHub
  - LinkedIn
  - HackTheBox
  - TryHackMe
"

def accounts : String := "root:x:0:0:root:/root:/bin/bash
daemon:x:1:1:daemon:/usr/sbin:/usr/sbin/nologin
user:x:1000:1000:Portfolio User:/home/user:/bin/bash
"

def hostTable : String := "127.0.0.1   localhost
127.0.1.1   cyber-portfolio
::1         localhost ip6-localhost ip6-loopback
"

/-- What the interactive loop shows first. -/
def messageOfTheDay : String := "
======================================================================

              Welcome to the Portfolio Terminal
                  Cybersecurity Portfolio

  Type 'help' for available commands
  Type 'cat ~/readme.txt' to get started

======================================================================
"

/-- The paths of the starter tree in order; a path without a text is a directory. -/
def tree : List (String × Option String) := [
  ("/home/user/readme.txt", some readme),
  ("/home/user/.flag.txt", some hiddenFlag),
  ("/home/user/cyberops/dhm.txt", some healthMonitor),
  ("/home/user/cyberops/lss.txt", some securitySuite),
  ("/home/user/cyberops/purplesploit.txt", some purpleSploit),
  ("/home/user/cyberops/ictf.txt", some mobileContest),
  ("/home/user/cyberops/mcp-kali.txt", some assistedTesting),
  ("/home/user/research/hardware/mini-cnc.txt", some millingMachine),
  ("/home/user/research/radio/rtl-sdr.txt", some radioProjects),
  ("/home/user/research/chemistry/pcb-etching.txt", some boardEtching),
  ("/home/user/intel/ctf-writeups/daily-bugle.txt", some dailyBugle),
  ("/home/user/intel/ctf-writeups/rootme.txt", some rootMe),
  ("/home/user/intel/technical-notes/linux-privesc.txt", some privilegeNotes),
  ("/home/user/intel/technical-notes/web-attacks.txt", some webNotes),
  ("/home/user/about/profile.txt", some profile),
  ("/home/user/about/certifications.txt", some certifications),
  ("/home/user/about/contact.txt", some contact),
  ("/etc/passwd", some accounts),
  ("/etc/hosts", some hostTable),
  ("/etc/motd", some messageOfTheDay),
  ("/tmp", none)]

end Shellbox.Filesystem.Starter
